/-!
# Powers of naturals and integers

A power of a number can be taken by more than one instance once algebra is known of. The
definitions of the library take powers of naturals and integers by that of core, whatever else is
known about powers where they stand. They say so by `open scoped MixedWorkload.Powers`.
-/

namespace MixedWorkload.Powers

attribute [scoped instance (high)] instPowNat

end MixedWorkload.Powers
