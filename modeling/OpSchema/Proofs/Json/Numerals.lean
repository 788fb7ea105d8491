import OpSchema.Proofs.Decimal.Range
import OpSchema.Proofs.Json.Spelling

/-!
# Natural numbers are read back

The digits of a natural number are scanned up to what ends the number
(`scanNumber_toDigits`).  A number below `2 ^ 64` is read as it is
(`scanNumber_toDigits_of_lt`), whatever its digits.  A larger one is read as a double, if
it is not too large for that, and never as a whole number (`scanNumber_toDigits_of_le`).
-/

namespace OpSchema.Json

open Decimal (Magnitude)

/-- Nothing follows a value, or what separates it from the next one or ends what holds it. -/
def EndsValue (rest : List Char) : Prop :=
  ∀ c ∈ rest.head?, c ∈ [',', ']', '\x7d']

/-- What follows does not go on with a whole number: no digit, no point and no exponent. -/
def EndsNumber (rest : List Char) : Prop :=
  ∀ c ∈ rest.head?, isDigit c = false ∧ c ∉ ['.', 'e', 'E']

theorem EndsValue.endsNumber {rest : List Char} (hends : EndsValue rest) : EndsNumber rest := by
  have hmarks : ∀ c ∈ [',', ']', '\x7d'], isDigit c = false ∧ c ∉ ['.', 'e', 'E'] := by
    simp [isDigit]
  exact fun c hc => hmarks c (hends c hc)

theorem endsNumber_cons {c : Char} (hc : isDigit c = false ∧ c ∉ ['.', 'e', 'E'])
    (more : List Char) : EndsNumber (c :: more) :=
  fun _ hhead => Option.some.inj hhead ▸ hc

/-- Blanks end a number, unless there are none. -/
theorem Blanks.endsNumber_append {blanks rest : List Char} (hblanks : Blanks blanks)
    (hrest : EndsNumber rest) : EndsNumber (blanks ++ rest) := by
  have hblank : ∀ c, isBlank c = true → isDigit c = false ∧ c ∉ ['.', 'e', 'E'] := by
    intro c hc
    simp only [isBlank, Bool.or_eq_true, decide_eq_true_eq] at hc
    rcases hc with ((rfl | rfl) | rfl) | rfl <;> decide
  cases blanks with
  | nil => exact hrest
  | cons c blanks => exact endsNumber_cons (hblank c (hblanks c List.mem_cons_self)) _

/-! ## Digits -/

theorem isDigit_of_mem_toDigits {n : Nat} {c : Char} (hc : c ∈ Nat.toDigits 10 n) :
    isDigit c = true := by
  have hdigit := Nat.isDigit_of_mem_toDigits (by decide) (by decide) hc
  simp only [Char.isDigit, Bool.and_eq_true, decide_eq_true_eq] at hdigit
  simp only [isDigit, Bool.and_eq_true, decide_eq_true_eq]
  exact hdigit

/-- A number has a first digit, which is not a zero, unless the number is zero. -/
theorem exists_toDigits_eq_cons (n : Nat) :
    ∃ c more, Nat.toDigits 10 n = c :: more ∧ isDigit c = true ∧ (c = '0' → n = 0) := by
  have hfirst : ∃ c more, Nat.toDigits 10 n = c :: more ∧ (c = '0' → n = 0) := by
    induction n using Nat.strongRecOn with
    | ind n ih =>
        by_cases hsmall : n < 10
        · refine ⟨n.digitChar, [], Nat.toDigits_of_lt_base hsmall, ?_⟩
          have hdigit : ∀ m < 10, m.digitChar = '0' → m = 0 := by decide
          exact hdigit n hsmall
        · obtain ⟨c, more, hdigits, hzero⟩ := ih (n / 10) (by omega)
          refine ⟨c, more ++ [(n % 10).digitChar], ?_, fun hc => ?_⟩
          · rw [Nat.toDigits_of_base_le (by decide) (by omega), hdigits, List.cons_append]
          · have := hzero hc
            omega
  obtain ⟨c, more, hdigits, hzero⟩ := hfirst
  have hmem : c ∈ Nat.toDigits 10 n := hdigits ▸ List.mem_cons_self
  exact ⟨c, more, hdigits, isDigit_of_mem_toDigits hmem, hzero⟩

/-- Digits end where a number ends. -/
theorem spanDigits_append {digits rest : List Char} (hdigits : ∀ c ∈ digits, isDigit c = true)
    (hrest : EndsNumber rest) : spanDigits (digits ++ rest) = (digits, rest) := by
  have hstop : rest.takeWhile isDigit = [] ∧ rest.dropWhile isDigit = rest := by
    cases rest with
    | nil => exact ⟨rfl, rfl⟩
    | cons c more => simp [(hrest c rfl).1]
  rw [spanDigits, List.takeWhile_append_of_pos hdigits, List.dropWhile_append_of_pos hdigits,
    hstop.1, hstop.2, List.append_nil]

/-! ## The significand -/

/-- The significand keeps to 64 bits, and no more digits are left over than there are. -/
theorem appendDigits_bounds {significand : Nat} (hfits : significand < wordLimit)
    (digits : List Char) :
    (appendDigits significand digits).1 < wordLimit ∧
      (appendDigits significand digits).2 ≤ digits.length := by
  induction digits generalizing significand with
  | nil => exact ⟨hfits, Nat.le_refl 0⟩
  | cons d digits ih =>
      rw [appendDigits]
      split
      · next hnext =>
        obtain ⟨hsignificand, hleft⟩ := ih hnext
        exact ⟨hsignificand, Nat.le_succ_of_le hleft⟩
      · exact ⟨hfits, Nat.le_refl _⟩

/-- A significand with further digits, as a number. -/
theorem ofDigitChars_cons (significand : Nat) (d : Char) (digits : List Char) :
    Nat.ofDigitChars 10 (d :: digits) significand =
      Nat.ofDigitChars 10 digits (significand * 10 + digitValue d) := by
  rw [Nat.ofDigitChars_cons, Nat.mul_comm, digitValue]

theorem le_ofDigitChars (significand : Nat) (digits : List Char) :
    significand ≤ Nat.ofDigitChars 10 digits significand := by
  induction digits generalizing significand with
  | nil => simp
  | cons d digits ih =>
      rw [ofDigitChars_cons]
      exact Nat.le_trans (by omega) (ih _)

/-- Digits of a number that fits are all taken. -/
theorem appendDigits_of_lt {significand : Nat} {digits : List Char}
    (hfits : Nat.ofDigitChars 10 digits significand < wordLimit) :
    appendDigits significand digits = (Nat.ofDigitChars 10 digits significand, 0) := by
  induction digits generalizing significand with
  | nil => simp [appendDigits]
  | cons d digits ih =>
      rw [ofDigitChars_cons] at hfits ⊢
      have hnext := Nat.lt_of_le_of_lt (le_ofDigitChars _ digits) hfits
      rw [appendDigits, if_pos hnext, ih hfits]

/-- Of a number that does not fit some digit is left over. -/
theorem appendDigits_snd_ne_zero {significand : Nat} {digits : List Char}
    (hsignificand : significand < wordLimit)
    (hlarge : wordLimit ≤ Nat.ofDigitChars 10 digits significand) :
    (appendDigits significand digits).2 ≠ 0 := by
  induction digits generalizing significand with
  | nil =>
      rw [Nat.ofDigitChars_nil] at hlarge
      omega
  | cons d digits ih =>
      rw [ofDigitChars_cons] at hlarge
      rw [appendDigits]
      split
      · next hnext => exact ih hnext hlarge
      · exact Nat.succ_ne_zero _

/-! ## Whole numbers -/

/-- A whole number is natural if all of its digits fit, and otherwise a double. -/
theorem scanAfterWhole_of_endsNumber (digits : List Char) {rest : List Char}
    (hrest : EndsNumber rest) :
    scanAfterWhole false digits rest =
      if (appendDigits 0 digits).2 = 0 then .ok (.natural (appendDigits 0 digits).1, rest)
      else scanReal false (appendDigits 0 digits).1 (appendDigits 0 digits).2 rest := by
  rw [scanAfterWhole]
  dsimp only
  -- What ends a number is neither a point nor the mark of an exponent.
  split
  · exact absurd (hrest '.' rfl).2 (by decide)
  · exact absurd (hrest 'e' rfl).2 (by decide)
  · exact absurd (hrest 'E' rfl).2 (by decide)
  · rfl

/-- **The digits of a natural number are scanned as a whole.** -/
theorem scanNumber_toDigits (n : Nat) {rest : List Char} (hrest : EndsNumber rest) :
    scanNumber (Nat.toDigits 10 n ++ rest) = scanAfterWhole false (Nat.toDigits 10 n) rest := by
  have hall : ∀ d ∈ Nat.toDigits 10 n, isDigit d = true := fun _ hd => isDigit_of_mem_toDigits hd
  obtain ⟨c, more, hdigits, hfirst, hzero⟩ := exists_toDigits_eq_cons n
  have hneedless : c = '0' → more = [] := by
    intro hc
    rw [hzero hc] at hdigits
    exact (List.cons.inj hdigits).2.symm
  rw [hdigits] at hall ⊢
  have hunsigned : scanNumber (c :: more ++ rest) = scanUnsigned false (c :: (more ++ rest)) := by
    rw [List.cons_append]
    unfold scanNumber
    split
    · next heq =>
      obtain rfl := (List.cons.inj heq).1
      exact absurd hfirst (by decide)
    · rfl
  rw [hunsigned]
  unfold scanUnsigned
  dsimp only
  by_cases hc : c = '0'
  · obtain rfl := hneedless hc
    rw [if_pos hc, List.nil_append, hc]
    cases rest with
    | nil => rfl
    | cons d rest =>
        dsimp only
        rw [if_neg (ne_true_of_eq_false (hrest d rfl).1)]
  · rw [if_neg hc, if_pos hfirst,
      spanDigits_append (fun d hd => hall d (List.mem_cons_of_mem c hd)) hrest]

/-- **A natural number of 64 bits is read as it is.** -/
theorem scanNumber_toDigits_of_lt {n : Nat} (hn : n < 2 ^ 64) {rest : List Char}
    (hrest : EndsNumber rest) :
    scanNumber (Nat.toDigits 10 n ++ rest) = .ok (.natural n, rest) := by
  have hfits : Nat.ofDigitChars 10 (Nat.toDigits 10 n) 0 < wordLimit := by
    rw [Nat.ofDigitChars_ten_toDigits]
    exact hn
  rw [scanNumber_toDigits n hrest, scanAfterWhole_of_endsNumber _ hrest,
    appendDigits_of_lt hfits, if_pos rfl, Nat.ofDigitChars_ten_toDigits]

/-- Digits spell the number that is scanned from them. -/
theorem spells_of_scanNumber_toDigits {n : Nat} {number : Number} {rest : List Char}
    (hscan : scanNumber (Nat.toDigits 10 n ++ rest) = .ok (number, rest)) :
    Spells (Nat.toDigits 10 n ++ rest) (.number number) rest := by
  obtain ⟨c, more, hdigits, hfirst, -⟩ := exists_toDigits_eq_cons n
  rw [hdigits] at hscan ⊢
  exact .number (.inr hfirst) hscan

theorem spells_toDigits {n : Nat} (hshort : n < 2 ^ 64) {rest : List Char}
    (hrest : EndsNumber rest) : Spells (Nat.toDigits 10 n ++ rest) (.natural n) rest :=
  spells_of_scanNumber_toDigits (scanNumber_toDigits_of_lt hshort hrest)

/-- **A larger natural number is no whole number any more.** -/
theorem scanNumber_toDigits_of_le {n : Nat} (hn : 2 ^ 64 ≤ n) {rest after : List Char}
    (hrest : EndsNumber rest) {number : Number}
    (hscan : scanNumber (Nat.toDigits 10 n ++ rest) = .ok (number, after)) :
    after = rest ∧ ∃ magnitude, number = .real false magnitude := by
  have hleft : (appendDigits 0 (Nat.toDigits 10 n)).2 ≠ 0 := by
    refine appendDigits_snd_ne_zero (by decide) ?_
    rw [Nat.ofDigitChars_ten_toDigits]
    exact hn
  rw [scanNumber_toDigits n hrest, scanAfterWhole_of_endsNumber _ hrest, if_neg hleft,
    scanReal] at hscan
  split at hscan
  · next magnitude _ =>
    obtain ⟨rfl, rfl⟩ := Prod.mk.inj (Except.ok.inj hscan)
    exact ⟨rfl, magnitude, rfl⟩
  · simp at hscan

/-- **A natural number of 128 bits is read as a number, up to what ends it.** -/
theorem exists_spells_natural {n : Nat} (hn : n < 2 ^ 128) :
    ∃ number, ∀ rest, EndsValue rest →
      Spells ((Document.natural n).compactChars ++ rest) (.number number) rest := by
  have hcompact : (Document.natural n).compactChars = Nat.toDigits 10 n := Nat.toList_repr
  have hlength : (Nat.toDigits 10 n).length ≤ 39 :=
    (Nat.length_toDigits_le_iff (by decide) (by decide)).2 (hn.trans_le (by decide))
  obtain ⟨hsignificand, hleft⟩ :=
    appendDigits_bounds (show 0 < wordLimit by decide) (Nat.toDigits 10 n)
  have hscan : ∃ number, ∀ rest, EndsValue rest →
      scanNumber (Nat.toDigits 10 n ++ rest) = .ok (number, rest) := by
    by_cases hfits : (appendDigits 0 (Nat.toDigits 10 n)).2 = 0
    · refine ⟨.natural (appendDigits 0 (Nat.toDigits 10 n)).1, fun rest hrest => ?_⟩
      rw [scanNumber_toDigits n hrest.endsNumber, scanAfterWhole_of_endsNumber _ hrest.endsNumber,
        if_pos hfits]
    · -- Less than 40 digits are not too many for a double.
      have hfew : (appendDigits 0 (Nat.toDigits 10 n)).2 < 40 := by omega
      obtain ⟨magnitude, hmagnitude⟩ := Magnitude.exists_ofDecimal? hsignificand hfew
      refine ⟨.real false magnitude, fun rest hrest => ?_⟩
      rw [scanNumber_toDigits n hrest.endsNumber, scanAfterWhole_of_endsNumber _ hrest.endsNumber,
        if_neg hfits, scanReal, hmagnitude]
  obtain ⟨number, hnumber⟩ := hscan
  refine ⟨number, fun rest hrest => ?_⟩
  rw [hcompact]
  exact spells_of_scanNumber_toDigits (hnumber rest hrest)

end OpSchema.Json
