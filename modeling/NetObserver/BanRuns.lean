import Mathlib.Data.List.Infix
import NetObserver.LinkConditions

/-! The bans a chronology of gateway readings holds, and that one newest-first scan counts them. -/

namespace NetObserver

open Machine

end NetObserver
