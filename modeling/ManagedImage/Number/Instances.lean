/-
Powers and sums of natural numbers.

A power and the zero of a sum are found through instances, of which an algebraic
library has more than one. In this namespace they are always those of the core
library, so that what a definition means hangs on no import.
-/

set_option autoImplicit false

namespace ManagedImage

attribute [scoped instance (high)] instPowNat Zero.ofOfNat0

end ManagedImage
