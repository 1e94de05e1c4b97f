/-! # Words that ignore ASCII case

    Column names and table qualifiers are the same word when they differ at
    most in the case of the letters `A` to `Z`. Every other character, accented
    letters included, has to agree exactly.
-/

namespace PushDown.Text

/-- The characters of a text with `A` to `Z` made small; two texts are the same word exactly when
    these keys agree. -/
def wordKey (text : String) : List Char :=
  text.toList.map Char.toLower

/-- Whether two texts agree up to the case of ASCII letters. -/
def sameWord (a b : String) : Bool :=
  wordKey a == wordKey b

theorem sameWord_iff {a b : String} : sameWord a b = true ↔ wordKey a = wordKey b := by
  simp [sameWord]

@[simp] theorem sameWord_self (a : String) : sameWord a a = true := by
  simp [sameWord]

theorem sameWord_comm (a b : String) : sameWord a b = sameWord b a := by
  simp [sameWord, Bool.beq_comm]

theorem sameWord_trans {a b c : String} (hab : sameWord a b = true) (hbc : sameWord b c = true) :
    sameWord a c = true := by
  rw [sameWord_iff] at *
  exact hab.trans hbc

end PushDown.Text
