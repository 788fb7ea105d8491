import Mathlib.Data.List.TakeWhile
import OpSchema.Proofs.Json.Spelling
import OpSchema.Proofs.Text.Runs

/-!
# The scanners keep to the grammar

For each scanner of `Json/Scanner.lean`, what it takes is what the grammar
spells, and it leaves what follows.  The scanner of texts runs up to a bound;
it takes every text that is no longer than the bound.
-/

namespace OpSchema.Json

/-! ## Blanks -/

theorem skipBlanks_append {blanks : List Char} (hblanks : Blanks blanks) (text : List Char) :
    skipBlanks (blanks ++ text) = skipBlanks text :=
  List.dropWhile_append_of_pos hblanks

theorem skipBlanks_cons {c : Char} (hc : isBlank c = false) (more : List Char) :
    skipBlanks (c :: more) = c :: more :=
  List.dropWhile_cons_of_neg (by simp [hc])

/-- Blanks in front of a character that is none are all that is skipped. -/
theorem skipBlanks_append_cons {blanks : List Char} (hblanks : Blanks blanks) {c : Char}
    (hc : isBlank c = false) (more : List Char) : skipBlanks (blanks ++ c :: more) = c :: more := by
  rw [skipBlanks_append hblanks, skipBlanks_cons hc]

/-- Blanks end at the first character that is none. -/
theorem blanks_append_cons_inj {blanks others more remaining : List Char} {c d : Char}
    (hblanks : Blanks blanks) (hothers : Blanks others) (hc : isBlank c = false)
    (hd : isBlank d = false) (hsame : blanks ++ c :: more = others ++ d :: remaining) :
    c = d ∧ more = remaining := by
  obtain ⟨-, hbehind⟩ :=
    Text.append_run_cons_inj hblanks hothers (by simp [hc]) (by simp [hd]) hsame
  exact List.cons.inj hbehind

/-- None of the four blanks is a digit. -/
theorem isBlank_eq_false_of_isDigit {c : Char} (hdigit : isDigit c = true) : isBlank c = false := by
  apply eq_false_of_ne_true
  intro hblank
  simp only [isBlank, Bool.or_eq_true, decide_eq_true_eq] at hblank
  rcases hblank with ((rfl | rfl) | rfl) | rfl <;> simp [isDigit] at hdigit

/-- Nothing is left after blanks alone. -/
theorem skipBlanks_eq_nil {text : List Char} : skipBlanks text = [] ↔ Blanks text :=
  List.dropWhile_eq_nil_iff

/-- What is skipped is a run of blanks. -/
theorem exists_blanks_append (text : List Char) :
    ∃ blanks, Blanks blanks ∧ text = blanks ++ skipBlanks text := by
  refine ⟨text.takeWhile isBlank, ?_, (List.takeWhile_append_dropWhile).symm⟩
  intro c hc
  exact List.all_eq_true.1 List.all_takeWhile c hc

/-! ## Words -/

theorem scanWord_eq_ok {word text rest : List Char} :
    scanWord word text = .ok rest ↔ text = word ++ rest := by
  induction word generalizing text with
  | nil => simp [scanWord, eq_comm]
  | cons w word ih =>
      cases text with
      | nil => simp [scanWord]
      | cons c text =>
          by_cases hsame : c = w
          · simp [scanWord, hsame, ih]
          · simp [scanWord, hsame]

/-! ## Escapes -/

theorem scanHex_eq_ok {text rest : List Char} {code : Nat} :
    scanHex text = .ok (code, rest) ↔ SpellsCode text code rest := by
  constructor
  · intro hscan
    unfold scanHex at hscan
    split at hscan
    · split at hscan
      · next ha hb hc hd =>
        obtain ⟨rfl, rfl⟩ := Prod.mk.inj (Except.ok.inj hscan)
        exact .digits ha hb hc hd
      · simp at hscan
    · split at hscan <;> simp at hscan
  · rintro ⟨ha, hb, hc, hd⟩
    simp [scanHex, ha, hb, hc, hd]

theorem SpellsCode.length_lt {text rest : List Char} {code : Nat} (hcode : SpellsCode text code rest) :
    rest.length < text.length := by
  cases hcode
  simp only [List.length_cons]
  omega

theorem scanLowSurrogate_eq_ok {text rest : List Char} {high : Nat} {c : Char} :
    scanLowSurrogate high text = .ok (c, rest) ↔
      ∃ more low, text = '\\' :: 'u' :: more ∧ SpellsCode more low rest ∧
        isLowSurrogate low = true ∧ c = Char.ofNat (pairCode high low) := by
  constructor
  · intro hscan
    unfold scanLowSurrogate at hscan
    split at hscan
    · simp at hscan
    · split at hscan
      · simp at hscan
      · next digits =>
        split at hscan
        · simp at hscan
        · next low more hhex =>
          split at hscan
          · next hlow =>
            obtain ⟨rfl, rfl⟩ := Prod.mk.inj (Except.ok.inj hscan)
            exact ⟨digits, low, rfl, scanHex_eq_ok.1 hhex, hlow, rfl⟩
          · simp at hscan
      · simp at hscan
    · simp at hscan
  · rintro ⟨more, low, rfl, hcode, hlow, hc⟩
    simp [scanLowSurrogate, scanHex_eq_ok.2 hcode, hlow, hc]

theorem scanEscape_eq_ok {text rest : List Char} {c : Char} :
    scanEscape text = .ok (c, rest) ↔ SpellsEscape text c rest := by
  constructor
  · intro hscan
    unfold scanEscape at hscan
    split at hscan
    · simp at hscan
    · next letter more =>
      split at hscan
      · next hshort =>
        obtain ⟨rfl, rfl⟩ := Prod.mk.inj (Except.ok.inj hscan)
        exact .letter hshort
      · split at hscan
        · next hmark =>
          subst hmark
          split at hscan
          · simp at hscan
          · next code after hhex =>
            have hcode := scanHex_eq_ok.1 hhex
            split at hscan
            · simp at hscan
            · next hlow =>
              split at hscan
              · next hhigh =>
                obtain ⟨second, low, rfl, hsecond, hlow, hc⟩ := scanLowSurrogate_eq_ok.1 hscan
                rw [hc]
                exact .pair hcode hhigh hsecond hlow
              · next hhigh =>
                obtain ⟨rfl, rfl⟩ := Prod.mk.inj (Except.ok.inj hscan)
                exact .code hcode (by simpa using hlow) (by simpa using hhigh)
        · simp at hscan
  · intro hescape
    have hmark : shortEscape? 'u' = none := by decide
    cases hescape with
    | letter hletter => simp [scanEscape, hletter]
    | code hcode hlow hhigh => simp [scanEscape, hmark, scanHex_eq_ok.2 hcode, hlow, hhigh]
    | @pair digits more _ high low hfirst hhigh hsecond hlow =>
        have hother : isLowSurrogate high = false := by
          simp only [isHighSurrogate, isLowSurrogate, Bool.and_eq_true, decide_eq_true_eq,
            Bool.and_eq_false_iff, decide_eq_false_iff_not] at hhigh ⊢
          omega
        have hpair : scanLowSurrogate high ('\\' :: 'u' :: more) =
            .ok (Char.ofNat (pairCode high low), rest) :=
          scanLowSurrogate_eq_ok.2 ⟨more, low, rfl, hsecond, hlow, rfl⟩
        simp [scanEscape, hmark, scanHex_eq_ok.2 hfirst, hother, hhigh, hpair]

theorem SpellsEscape.length_lt {text rest : List Char} {c : Char}
    (hescape : SpellsEscape text c rest) : rest.length < text.length := by
  cases hescape with
  | letter hletter => simp
  | code hcode _ _ =>
      have := hcode.length_lt
      simp only [List.length_cons]
      omega
  | pair hfirst _ hsecond _ =>
      have := hfirst.length_lt
      have := hsecond.length_lt
      simp only [List.length_cons] at *
      omega

theorem SpellsCode.isSuffix {text rest : List Char} {code : Nat}
    (hcode : SpellsCode text code rest) : rest <:+ text := by
  cases hcode
  exact ⟨[_, _, _, _], rfl⟩

theorem SpellsEscape.isSuffix {text rest : List Char} {c : Char}
    (hescape : SpellsEscape text c rest) : rest <:+ text := by
  cases hescape with
  | letter _ => exact List.suffix_cons _ _
  | code hcode _ _ => exact hcode.isSuffix.trans (List.suffix_cons _ _)
  | @pair digits more _ _ _ hfirst _ hsecond _ =>
      have hmore : more <:+ '\\' :: 'u' :: more := ⟨['\\', 'u'], rfl⟩
      exact ((hsecond.isSuffix.trans hmore).trans hfirst.isSuffix).trans (List.suffix_cons _ _)

/-! ## Texts -/

theorem SpellsText.length_lt {text value rest : List Char} (htext : SpellsText text value rest) :
    rest.length < text.length := by
  induction htext with
  | close => simp
  | plain _ _ _ _ ih =>
      simp only [List.length_cons]
      omega
  | escape hescape _ ih =>
      have := hescape.length_lt
      simp only [List.length_cons]
      omega

theorem SpellsText.isSuffix {text value rest : List Char} (htext : SpellsText text value rest) :
    rest <:+ text := by
  induction htext with
  | close => exact List.suffix_cons _ _
  | plain _ _ _ _ ih => exact ih.trans (List.suffix_cons _ _)
  | escape hescape _ ih => exact (ih.trans hescape.isSuffix).trans (List.suffix_cons _ _)

private theorem spellsText_of_scanTextFrom {bound : Nat} {read text rest : List Char} {s : String}
    (hscan : scanTextFrom bound read text = .ok (s, rest)) :
    ∃ value, SpellsText text value rest ∧ s = String.ofList (read.reverse ++ value) := by
  fun_induction scanTextFrom bound read text with
  | case1 read text => simp at hscan
  | case2 bound read => simp at hscan
  | case3 bound read more =>
      obtain ⟨rfl, rfl⟩ := Prod.mk.inj (Except.ok.inj hscan)
      exact ⟨[], .close, by simp⟩
  | case4 bound read more fault _ _ => simp at hscan
  | case5 bound read more x after hescape _ ih =>
      obtain ⟨value, htext, rfl⟩ := ih hscan
      exact ⟨x :: value, .escape (scanEscape_eq_ok.1 hescape) htext, by simp⟩
  | case6 bound read c more _ _ _ => simp at hscan
  | case7 bound read c more hquote hslash hcontrol ih =>
      obtain ⟨value, htext, rfl⟩ := ih hscan
      exact ⟨c :: value, .plain hquote hslash (Nat.not_lt.1 hcontrol) htext, by simp⟩

private theorem scanTextFrom_of_spellsText {text value rest : List Char}
    (htext : SpellsText text value rest) {bound : Nat} (hbound : text.length ≤ bound)
    (read : List Char) :
    scanTextFrom bound read text = .ok (String.ofList (read.reverse ++ value), rest) := by
  induction htext generalizing bound read with
  | close =>
      obtain ⟨bound, rfl⟩ : ∃ n, bound = n + 1 := ⟨bound - 1, by simp at hbound; omega⟩
      simp [scanTextFrom]
  | @plain c text value rest hquote hslash hcontrol _ ih =>
      obtain ⟨bound, rfl⟩ : ∃ n, bound = n + 1 := ⟨bound - 1, by simp at hbound; omega⟩
      have hnext := ih (Nat.le_of_succ_le_succ hbound) (c :: read)
      rw [scanTextFrom, if_neg hquote, if_neg hslash, if_neg (Nat.not_lt.2 hcontrol), hnext]
      simp
  | @escape c text after value rest hescape _ ih =>
      obtain ⟨bound, rfl⟩ : ∃ n, bound = n + 1 := ⟨bound - 1, by simp at hbound; omega⟩
      have hshorter := hescape.length_lt
      have hroom : after.length ≤ bound := by
        simp only [List.length_cons] at hbound
        omega
      have hnext := ih hroom (c :: read)
      simp only [scanTextFrom, scanEscape_eq_ok.2 hescape, hnext]
      simp

/-- What the scanner of texts takes is spelled. -/
theorem spellsText_of_scanText {bound : Nat} {text rest : List Char} {s : String}
    (hscan : scanText bound text = .ok (s, rest)) :
    ∃ value, SpellsText text value rest ∧ s = String.ofList value := by
  simpa using spellsText_of_scanTextFrom hscan

/-- A spelled text within the bound is taken. -/
theorem scanText_of_spellsText {bound : Nat} {text value rest : List Char}
    (htext : SpellsText text value rest) (hbound : text.length ≤ bound) :
    scanText bound text = .ok (String.ofList value, rest) := by
  exact scanTextFrom_of_spellsText htext hbound []

/-! ## Numbers

The grammar leaves numbers to the scanner, so all there is to say is that the
scanner takes characters from the front of a text, at least one. -/

private theorem scanReal_rest {isNegative : Bool} {significand : Nat} {exponent : Int}
    {text rest : List Char} {n : Number}
    (hscan : scanReal isNegative significand exponent text = .ok (n, rest)) : rest = text := by
  unfold scanReal at hscan
  split at hscan
  · simp_all
  · simp at hscan

private theorem spanDigits_isSuffix (text : List Char) : (spanDigits text).2 <:+ text :=
  List.dropWhile_suffix isDigit

private theorem isSuffix_of_scanExponentDigits {value : Nat} {text : List Char} :
    match scanExponentDigits value text with
    | .inl (_, rest) => rest <:+ text
    | .inr rest => rest <:+ text := by
  induction text generalizing value with
  | nil => simp [scanExponentDigits]
  | cons c text ih =>
      unfold scanExponentDigits
      by_cases hdigit : isDigit c = true
      · rw [if_pos hdigit]
        by_cases hfits : value * 10 + digitValue c < exponentLimit
        · have hnext := @ih (value * 10 + digitValue c)
          simp only [hfits, if_true]
          split
          · next hrest =>
            rw [hrest] at hnext
            exact hnext.trans (List.suffix_cons c text)
          · next hrest =>
            rw [hrest] at hnext
            exact hnext.trans (List.suffix_cons c text)
        · simp [hfits]
      · simp [hdigit]

private theorem isSuffix_of_scanExponent {isNegative : Bool} {significand : Nat} {scale : Int}
    {text rest : List Char} {n : Number}
    (hscan : scanExponent isNegative significand scale text = .ok (n, rest)) : rest <:+ text := by
  have hsign : (exponentSign text).2 <:+ text := by
    unfold exponentSign
    split <;> simp
  unfold scanExponent scanUnsignedExponent at hscan
  dsimp only at hscan
  split at hscan
  · simp at hscan
  · next c more hdigits =>
    rw [hdigits] at hsign
    have hmore : more <:+ text := (List.suffix_cons c more).trans hsign
    split at hscan
    · have hsuffix := @isSuffix_of_scanExponentDigits (digitValue c) more
      split at hscan
      · next value after hexponent =>
        rw [hexponent] at hsuffix
        rw [scanReal_rest hscan]
        exact hsuffix.trans hmore
      · next after hexponent =>
        rw [hexponent] at hsuffix
        split at hscan
        · simp at hscan
        · obtain ⟨-, rfl⟩ := Prod.mk.inj (Except.ok.inj hscan)
          exact (spanDigits_isSuffix after).trans (hsuffix.trans hmore)
    · simp at hscan

private theorem isSuffix_of_scanPlaces {isNegative : Bool} {significand : Nat} {scale : Int}
    {text rest : List Char} {n : Number}
    (hscan : scanPlaces isNegative significand scale text = .ok (n, rest)) : rest <:+ text := by
  have hspan := spanDigits_isSuffix text
  unfold scanPlaces at hscan
  split at hscan
  · simp at hscan
  · simp at hscan
  · next places more _ hdigits =>
    rw [hdigits] at hspan
    unfold scanScale at hscan
    dsimp only at hscan hspan
    split at hscan
    · split at hscan
      · exact (isSuffix_of_scanExponent hscan).trans ((List.suffix_cons _ _).trans hspan)
      · rw [scanReal_rest hscan]
        exact hspan
    · rw [scanReal_rest hscan]
      exact hspan

private theorem isSuffix_of_scanAfterWhole {isNegative : Bool} {digits text rest : List Char}
    {n : Number} (hscan : scanAfterWhole isNegative digits text = .ok (n, rest)) :
    rest <:+ text := by
  unfold scanAfterWhole at hscan
  dsimp only at hscan
  split at hscan
  · exact (isSuffix_of_scanPlaces hscan).trans (List.suffix_cons _ _)
  · exact (isSuffix_of_scanExponent hscan).trans (List.suffix_cons _ _)
  · exact (isSuffix_of_scanExponent hscan).trans (List.suffix_cons _ _)
  · split at hscan
    · unfold wholeNumber at hscan
      split at hscan
      · simp_all
      · split at hscan
        · simp_all
        · exact scanReal_rest hscan ▸ List.suffix_rfl
    · exact scanReal_rest hscan ▸ List.suffix_rfl

private theorem isSuffix_of_scanUnsigned {isNegative : Bool} {text rest : List Char} {n : Number}
    (hscan : scanUnsigned isNegative text = .ok (n, rest)) :
    ∃ c more, text = c :: more ∧ rest <:+ more := by
  unfold scanUnsigned at hscan
  split at hscan
  · simp at hscan
  · next c more =>
    refine ⟨c, more, rfl, ?_⟩
    split at hscan
    · split at hscan
      · split at hscan
        · simp at hscan
        · exact isSuffix_of_scanAfterWhole hscan
      · exact isSuffix_of_scanAfterWhole hscan
    · split at hscan
      · exact (isSuffix_of_scanAfterWhole hscan).trans (spanDigits_isSuffix more)
      · simp at hscan

/-- A number takes at least one character. -/
theorem isSuffix_of_scanNumber {text rest : List Char} {n : Number}
    (hscan : scanNumber text = .ok (n, rest)) : ∃ c more, text = c :: more ∧ rest <:+ more := by
  unfold scanNumber at hscan
  split at hscan
  · next more =>
    obtain ⟨c, after, rfl, hsuffix⟩ := isSuffix_of_scanUnsigned hscan
    exact ⟨'-', c :: after, rfl, hsuffix.trans (List.suffix_cons c after)⟩
  · exact isSuffix_of_scanUnsigned hscan

theorem length_lt_of_scanNumber {text rest : List Char} {n : Number}
    (hscan : scanNumber text = .ok (n, rest)) : rest.length < text.length := by
  obtain ⟨c, more, rfl, hsuffix⟩ := isSuffix_of_scanNumber hscan
  exact Nat.lt_succ_of_le hsuffix.length_le

end OpSchema.Json
