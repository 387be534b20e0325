/-!
# Parts of a text

Texts are taken apart as lists of characters: splitting at a character, searching for a part, and
removing a part from either end as often as it stands there.
-/

namespace Deadwood.Text

/-- The pieces of a text between the occurrences of `sep`; there is always at least one. -/
def splitAtChar (sep : Char) : List Char → List (List Char)
  | [] => [[]]
  | c :: cs =>
    if c = sep then [] :: splitAtChar sep cs
    else
      match splitAtChar sep cs with
      | [] => [[c]]
      | piece :: pieces => (c :: piece) :: pieces

/-- Whether `part` stands somewhere in a text. -/
def occursIn (part : List Char) : List Char → Bool
  | [] => part.isEmpty
  | c :: cs => part.isPrefixOf (c :: cs) || occursIn part cs

/-- Remove `lead` from the front of a text as often as it stands there. -/
def trimStartOf (lead text : List Char) : List Char :=
  if _h : lead ≠ [] ∧ lead.isPrefixOf text = true then trimStartOf lead (text.drop lead.length)
  else text
termination_by text.length
decreasing_by
  obtain ⟨hne, hpre⟩ := _h
  have hlen := (List.isPrefixOf_iff_prefix.mp hpre).length_le
  have hpos : 0 < lead.length := List.length_pos_iff.mpr hne
  simp only [List.length_drop]
  omega

/-- Remove `tail` from the end of a text as often as it stands there. -/
def trimEndOf (tail text : List Char) : List Char :=
  (trimStartOf tail.reverse text.reverse).reverse

/-- Replace every `old` by `new`. -/
def replaceChar (old new : Char) (text : List Char) : List Char :=
  text.map fun c => if c = old then new else c

theorem splitAtChar_ne_nil (sep : Char) (text : List Char) : splitAtChar sep text ≠ [] := by
  cases text with
  | nil => simp [splitAtChar]
  | cons c cs =>
    simp only [splitAtChar]
    split
    · simp
    · split <;> simp

end Deadwood.Text
