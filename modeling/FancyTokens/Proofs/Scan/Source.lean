import FancyTokens.Proofs.Grammar.Fancy
import FancyTokens.Proofs.Scan.Coverage

/-!
# Tokens and their source

The tokens of Fancy source make it up, one behind the other. Their texts therefore give it back
(`detokenize_tokenize`), and their offsets follow from their texts (`placeFrom_tokenize`).
-/

namespace FancyTokens

variable {offset : Nat} {text : List Char} {tokens : List Token}

theorem tiling_tokenize (source : List Char) : Tiling 0 source (tokenize source) :=
  ((Scan.behind_start source).tiling_tokens fancyTable_anchored).1

/-- The tokens of a source give it back. -/
theorem detokenize_tokenize (source : List Char) : detokenize (tokenize source) = source :=
  (tiling_tokenize source).detokenize_eq

/-- Texts with their categories as tokens that stand side by side, from an offset on. -/
def placeFrom (offset : Nat) : List (Category × List Char) → List Token
  | [] => []
  | (category, text) :: pieces =>
    .ofText category offset text :: placeFrom (offset + byteLength text) pieces

/-- Tokens that stand side by side have the offsets that follow from their texts. -/
theorem Tiling.placeFrom_eq (h : Tiling offset text tokens) :
    placeFrom offset (tokens.map fun t => (t.category, t.text)) = tokens := by
  induction h with
  | nil => rfl
  | @cons category offset text _ _ _ _ ih =>
    rw [List.map_cons]
    show Token.ofText category offset text :: placeFrom (offset + byteLength text) _ = _
    rw [ih]

/-- The offsets of the tokens of a source follow from their texts. -/
theorem placeFrom_tokenize (source : List Char) :
    placeFrom 0 (categorized source) = tokenize source :=
  (tiling_tokenize source).placeFrom_eq

end FancyTokens
