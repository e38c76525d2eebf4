import NetObserver.SingboxConditions

/-! The dial-timeout condition's fallback for a node without an endpoint: when it fires, and what
a tick still being written makes of it. -/

namespace NetObserver

end NetObserver
