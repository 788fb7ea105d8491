/-!
# Searching in a text

What follows the first occurrence of a pattern, and what stands before the first
occurrence of a character.
-/

namespace OpSchema.Text

/-- What follows the first occurrence of the pattern. -/
def afterFirst? (pattern : List Char) : List Char → Option (List Char)
  | [] => if pattern.isEmpty then some [] else none
  | c :: cs =>
    if pattern.isPrefixOf (c :: cs) then some ((c :: cs).drop pattern.length)
    else afterFirst? pattern cs

/-- Nothing is found exactly if the pattern is nowhere in the text. -/
theorem afterFirst?_eq_none_iff {pattern cs : List Char} :
    afterFirst? pattern cs = none ↔ ¬pattern <:+: cs := by
  induction cs with
  | nil => simp [afterFirst?]
  | cons c cs ih =>
      rw [afterFirst?, List.infix_cons_iff, not_or, ← ih, ← List.isPrefixOf_iff_prefix]
      split
      · next hstarts => simp [hstarts]
      · next hother => simp [hother]

theorem afterFirst?_append {pattern : List Char} (hpattern : pattern ≠ []) (rest : List Char) :
    afterFirst? pattern (pattern ++ rest) = some rest := by
  cases pattern with
  | nil => exact absurd rfl hpattern
  | cons c pattern =>
      have hstarts : (c :: pattern).isPrefixOf (c :: (pattern ++ rest)) = true :=
        List.isPrefixOf_iff_prefix.2 (List.prefix_append (c :: pattern) rest)
      rw [List.cons_append, afterFirst?, if_pos hstarts]
      simp

/-- What stands before the first occurrence of the character. -/
def beforeFirst? (mark : Char) (cs : List Char) : Option (List Char) :=
  if cs.contains mark then some (cs.takeWhile (· != mark)) else none

theorem beforeFirst?_append_cons {mark : Char} {cs : List Char} (habsent : mark ∉ cs)
    (rest : List Char) : beforeFirst? mark (cs ++ mark :: rest) = some cs := by
  have hothers : ∀ c ∈ cs, (c != mark) = true := by
    intro c hc
    rw [bne_iff_ne]
    rintro rfl
    exact habsent hc
  simp [beforeFirst?, List.takeWhile_append_of_pos hothers]

/-- What stands between the first occurrence of the pattern and the first
occurrence of the character behind it. -/
def between? (pattern : List Char) (mark : Char) (cs : List Char) : Option (List Char) :=
  (afterFirst? pattern cs).bind (beforeFirst? mark)

end OpSchema.Text
