import NetObserver.LogLine
import NetObserver.Samples

/-! The class of a parsed log line, by its component and the words of its message. -/

namespace NetObserver
namespace SingboxLog

open StdText

/-- The node named by `using outbound/<kind>[<node>]`. -/
def outboundNode (msg : List Char) : Option String := do
  let after ← behindFirst "using outbound/".toList msg
  let opened ← (splitOnce '[' after).2
  let (node, closed) := splitOnce ']' opened
  let _ ← closed
  some (String.ofList node)

def startsWith (start msg : List Char) : Bool := start.isPrefixOf msg

/-- The outcome of an outbound dial. -/
def dialClass (msg : List Char) : SingboxLogClass :=
  if contains "no route to internet".toList msg then .noRoute
  else if contains "network is unreachable".toList msg then .unreachable
  else if contains "i/o timeout".toList msg then .dialTimeout
  else if contains "context canceled".toList msg || contains "operation was canceled".toList msg then
    .canceled
  else .other

/-- The class of a line at WARN or above. -/
def classifyAlert (component msg : List Char) : SingboxLogClass × Option String :=
  if contains "x509: certificate is valid for".toList msg then (.tlsCertMismatch, outboundNode msg)
  else if component = "connection".toList ∧ startsWith "open connection to".toList msg then
    (dialClass msg, outboundNode msg)
  else if component = "connection".toList ∧
      (startsWith "connection download closed".toList msg ||
        startsWith "connection upload closed".toList msg) then
    (.streamClosed, none)
  else if (component = "network".toList ∨ component = "dns/local".toList) ∧
      contains "missing default interface".toList msg then
    (.noDefaultIface, none)
  else if component = "dns/local".toList ∧
      (contains "context deadline exceeded".toList msg ||
        contains "address already in use".toList msg) then
    (.dnsServersFailed, none)
  else if component = "dns".toList ∧ startsWith "exchange failed".toList msg then
    (.dnsExchangeFailed, none)
  else if component = "router".toList ∧
      startsWith "process DNS packet: unpack request".toList msg then
    (.dnsBadPacket, none)
  else if component = "router".toList ∧
      startsWith "process DNS packet: dial UDP connection".toList msg then
    (.dnsExchangeFailed, none)
  else if component = "outbound/direct".toList ∧
      (startsWith "receive ICMP echo reply".toList msg && contains "i/o timeout".toList msg) then
    (.icmpReplyTimeout, none)
  else if component = "inbound/tun".toList ∧
      contains "icmp is not supported by default outbound".toList msg then
    (.icmpUnsupported, none)
  else (.other, none)

def startedText : List Char := "sing-box started".toList

def ifaceText : List Char := "updated default interface".toList

/-- The interface that a message behind its fixed words names. -/
def namedIface (rest : List Char) : Option String :=
  let iface := rest.takeWhile fun c => !(c = ',' || Dhcp.isWhitespace c)
  if iface.isEmpty then none else some (String.ofList iface)

/-- The two lines that are evidence whatever their level, and any line at WARN or above. -/
def classify (line : LogLine) : Option (SingboxLogClass × Option String) :=
  let msg := line.message
  if line.component.isEmpty ∧ startsWith startedText msg then some (.started, none)
  else if line.component = "network".toList ∧ startsWith (ifaceText ++ [' ']) msg then
    some (.defaultIfaceUpdated, namedIface (msg.drop (ifaceText.length + 1)))
  else if !line.level.isAlert then none
  else some (classifyAlert line.component msg)

end SingboxLog
end NetObserver
