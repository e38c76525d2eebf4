import NetObserver.SingboxConditions

/-! The portal condition against the evidence it stands for: the newest measured probe, and the
storm of foreign certificates since. -/

namespace NetObserver

open Machine

namespace RecentWindow

end RecentWindow

def pushed (samples : List Sample) : RecentWindow :=
  runWindow (.new windowCap) (samples.map .push)

end NetObserver
