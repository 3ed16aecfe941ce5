import Mathlib
import TurboPanel.Js.Text

/-!
# Quantifiers over a text

Whether all characters of a text have a property is decided along the text, not over all characters
there are.
-/

namespace TurboPanel.Js

instance decidableForallMem {p : Char → Prop} [DecidablePred p] (text : Text) : Decidable (∀ c ∈ text, p c) :=
  List.decidableBAll p text

end TurboPanel.Js
