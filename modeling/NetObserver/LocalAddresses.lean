import Mathlib.Data.List.Nodup
import Mathlib.Data.List.Pairwise
import NetObserver.DottedQuad
import NetObserver.Infixes

/-! The gateway's MAC in a listing of the address cache, and the interface that holds an address in
a listing of the interfaces. -/

namespace NetObserver

open StdText

def atText : List Char := [' ', 'a', 't', ' ']

def inetText : List Char := ['i', 'n', 'e', 't', ' ']

/-- No end of a line, nor the return before one. -/
def SingleLine (s : List Char) : Prop := '\n' ∉ s ∧ '\r' ∉ s

def Unspaced (s : List Char) : Prop := ∀ c ∈ s, Dhcp.isWhitespace c = false

/-- An entry as `arp` prints it: `host (ip) at mac on` and what is behind that. -/
structure ArpEntry where
  host : List Char
  ip : Ipv4Addr
  mac : List Char
  behind : List Char
  host_plain : Unspaced host
  mac_plain : Unspaced mac
  mac_some : mac ≠ []
  behind_plain : SingleLine behind

def addrText (a : Ipv4Addr) : List Char := (IpAddr.v4 a).text.toList

namespace ArpEntry

def line (e : ArpEntry) : List Char :=
  e.host ++ ' ' :: '(' :: (addrText e.ip ++ ')' :: (atText ++
    (e.mac ++ ' ' :: 'o' :: 'n' :: ' ' :: e.behind)))

end ArpEntry

/-- Lines, each with its end. -/
def printed (ls : List (List Char)) : List Char := ls.flatMap (· ++ ['\n'])

/-- An indented line of a block: an address, with what follows the blank behind it, or anything
else. -/
inductive BlockLine where
  | inet (ip : Ipv4Addr) (tail : List Char) (plain : SingleLine tail) (only : ¬ inetText <:+: tail)
  | other (text : List Char) (plain : SingleLine text) (none_ : ¬ inetText <:+: text)

namespace BlockLine

def line : BlockLine → List Char
  | .inet ip tail _ _ => '\t' :: (inetText ++ (addrText ip ++ ' ' :: tail))
  | .other text _ _ => '\t' :: text

def addr : BlockLine → Option Ipv4Addr
  | .inet ip _ _ _ => some ip
  | .other .. => none

end BlockLine

structure IfaceBlock where
  name : List Char
  flags : List Char
  indented : List BlockLine
  name_plain : Unspaced name
  name_ends : ':' ∉ name
  flags_plain : SingleLine flags

namespace IfaceBlock

def header (b : IfaceBlock) : List Char := b.name ++ ':' :: b.flags

def lines (b : IfaceBlock) : List (List Char) := b.header :: b.indented.map BlockLine.line

def addrs (b : IfaceBlock) : List Ipv4Addr := b.indented.filterMap BlockLine.addr

end IfaceBlock

/-- A listing of interfaces in which no address occurs twice. -/
structure Ifconfig where
  blocks : List IfaceBlock
  distinct : (blocks.flatMap IfaceBlock.addrs).Nodup

def Ifconfig.lines (c : Ifconfig) : List (List Char) := c.blocks.flatMap IfaceBlock.lines

section

variable {c d : Char} {needle p s : List Char}

theorem Unspaced.free (plain : Unspaced s) (space : Dhcp.isWhitespace c = true) : c ∉ s := by
  intro mem
  rw [plain c mem] at space
  cases space

theorem unspaced_of_all (all : (s.all fun c => !Dhcp.isWhitespace c) = true) : Unspaced s := by
  intro c mem
  rw [List.all_eq_true] at all
  simpa using all c mem

theorem lines_printed {ls : List (List Char)} (plain : ∀ l ∈ ls, SingleLine l) :
    lines (printed ls) = ls := by
  have split : (printed ls).splitOn '\n' = ls ++ [[]] := by
    unfold printed
    induction ls with
    | nil => rfl
    | cons l ls ih =>
      have own := (plain l List.mem_cons_self).1
      rw [List.flatMap_cons, List.append_assoc, List.singleton_append, List.cons_append,
        ← ih fun l mem => plain l (List.mem_cons_of_mem _ mem)]
      unfold List.splitOn
      apply List.splitOnP_append_cons_of_forall_mem (p := fun d => d == '\n')
      · intro d mem
        rw [beq_eq_false_iff_ne]
        intro same
        exact own (same ▸ mem)
      · exact beq_self_eq_true _
  unfold StdText.lines
  dsimp only
  rw [split, List.getLastD_concat, List.dropLast_concat]
  have kept : ls.map (fun l => if l.getLast? = some '\r' then l.dropLast else l) = ls := by
    rw [List.map_congr_left (g := id), List.map_id]
    intro l mem
    refine if_neg fun last => ?_
    exact (plain l mem).2 (List.mem_of_getLast? last)
  rw [kept]
  exact List.append_nil ls

end

namespace ArpEntry

variable (e : ArpEntry)

theorem line_plain : SingleLine e.line := by
  have host := e.host_plain
  have mac := e.mac_plain
  have text := fun c => DottedQuad.notMem_text (c := c) e.ip
  unfold SingleLine line addrText atText
  simp only [List.mem_append, List.mem_cons, List.not_mem_nil, not_or]
  constructor
  · refine ⟨host.free rfl, by decide, by decide, text _ rfl (by decide), by decide, ?_⟩
    exact ⟨by decide, mac.free rfl, by decide, by decide, by decide, by decide, e.behind_plain.1⟩
  · refine ⟨host.free rfl, by decide, by decide, text _ rfl (by decide), by decide, ?_⟩
    exact ⟨by decide, mac.free rfl, by decide, by decide, by decide, by decide, e.behind_plain.2⟩

end ArpEntry

namespace BlockLine

variable (l : BlockLine) (a : Ipv4Addr)

theorem line_plain : SingleLine l.line := by
  cases l with
  | inet ip tail plain only =>
    have text := fun c => DottedQuad.notMem_text (c := c) ip
    unfold SingleLine line addrText inetText
    simp only [List.mem_append, List.mem_cons, List.not_mem_nil, not_or]
    exact ⟨⟨by decide, by decide, text _ rfl (by decide), by decide, plain.1⟩,
      by decide, by decide, text _ rfl (by decide), by decide, plain.2⟩
  | other text plain none_ =>
    unfold SingleLine line
    rw [List.mem_cons, List.mem_cons, not_or, not_or]
    exact ⟨⟨by decide, plain.1⟩, by decide, plain.2⟩

end BlockLine

namespace IfaceBlock

variable (b : IfaceBlock) (a : Ipv4Addr)

theorem header_plain : SingleLine b.header := by
  unfold SingleLine header
  simp only [List.mem_append, List.mem_cons, not_or]
  exact ⟨⟨b.name_plain.free rfl, by decide, b.flags_plain.1⟩,
    b.name_plain.free rfl, by decide, b.flags_plain.2⟩

end IfaceBlock

/-- `? (ip) at mac on en0`. -/
def ArpEntry.onEn0 (ip : Ipv4Addr) (mac : List Char) (plain : Unspaced mac) (some_ : mac ≠ []) :
    ArpEntry :=
  { host := ['?'], ip, mac, behind := ['e', 'n', '0'], host_plain := unspaced_of_all rfl
    mac_plain := plain, mac_some := some_, behind_plain := by unfold SingleLine; decide }

end NetObserver
