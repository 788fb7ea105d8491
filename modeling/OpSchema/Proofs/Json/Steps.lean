import OpSchema.Json.Reader
import OpSchema.Proofs.Json.Matching
import OpSchema.Proofs.Json.Scanning

/-!
# The steps of the reader keep to the grammar

Between the documents inside a bracket the reader takes small steps: to the next
item, to the next key, over a colon, to the closing bracket.  Each is described
here once, by what the grammar has at that place.  The accounts of the whole
reader, `Soundness.lean` and `Completeness.lean`, use these and open none of the
steps again.
-/

namespace OpSchema.Json

variable {ρ : Type}

theorem Blanks.append {first second : List Char} (hfirst : Blanks first) (hsecond : Blanks second) :
    Blanks (first ++ second) :=
  fun c hc => (List.mem_append.1 hc).elim (hfirst c) (hsecond c)

/-- More blanks may stand in front. -/
theorem Lead.append_blanks {isFirst : Bool} {text blanks more : List Char} (hblanks : Blanks blanks)
    (hlead : Lead isFirst text (blanks ++ more)) : Lead isFirst text more := by
  cases hlead with
  | first hfirst =>
      rw [← List.append_assoc]
      exact .first (hfirst.append hblanks)
  | next hbefore hfirst =>
      rw [← List.append_assoc]
      exact .next hbefore (hfirst.append hblanks)

theorem Lead.isSuffix {isFirst : Bool} {text more : List Char} (hlead : Lead isFirst text more) :
    more <:+ text := by
  cases hlead with
  | @first blanks _ _ => exact List.suffix_append blanks more
  | @next before blanks _ _ _ =>
      exact (List.suffix_append blanks more).trans
        ((List.suffix_cons _ _).trans (List.suffix_append before _))

theorem Lead.length_le {isFirst : Bool} {text more : List Char} (hlead : Lead isFirst text more) :
    more.length ≤ text.length :=
  hlead.isSuffix.length_le

/-! ## Lists -/

theorem nextItem_eq_stop {isFirst : Bool} {text rest : List Char} :
    nextItem isFirst text = .ok (.stop rest) ↔
      ∃ blanks, Blanks blanks ∧ text = blanks ++ ']' :: rest := by
  constructor
  · intro hnext
    obtain ⟨blanks, hblanks, htext⟩ := exists_blanks_append text
    unfold nextItem at hnext
    split at hnext
    · simp at hnext
    · next c more hskip =>
      split at hnext
      · next hclose =>
        obtain rfl : more = rest := by simpa using hnext
        exact ⟨blanks, hblanks, by rw [htext, hskip, hclose]⟩
      · split at hnext
        · simp at hnext
        · split at hnext
          · split at hnext
            · simp at hnext
            · split at hnext <;> simp at hnext
          · simp at hnext
  · rintro ⟨blanks, hblanks, rfl⟩
    simp [nextItem, skipBlanks_append_cons hblanks (show isBlank ']' = false by decide)]

/-- A step to an item ends at the first character of the item. -/
theorem lead_of_nextItem {isFirst : Bool} {text after : List Char}
    (hnext : nextItem isFirst text = .ok (.more after)) : Lead isFirst text after := by
  obtain ⟨before, hbefore, htext⟩ := exists_blanks_append text
  unfold nextItem at hnext
  split at hnext
  · simp at hnext
  · next c more hskip =>
    rw [hskip] at htext
    split at hnext
    · simp at hnext
    · split at hnext
      · next hfirst =>
        obtain rfl : c :: more = after := by simpa using hnext
        rw [htext, hfirst]
        exact .first hbefore
      · next hlater =>
        split at hnext
        · next hcomma =>
          obtain ⟨blanks, hblanks, hmore⟩ := exists_blanks_append more
          split at hnext
          · simp at hnext
          · next d tail hskip =>
            split at hnext
            · simp at hnext
            · obtain rfl : d :: tail = after := by simpa using hnext
              rw [htext, hcomma, hmore, hskip, eq_false_of_ne_true hlater]
              exact .next hbefore hblanks
        · simp at hnext

theorem nextItem_of_lead {isFirst : Bool} {text more : List Char} {c : Char}
    (hlead : Lead isFirst text (c :: more)) (hblank : isBlank c = false) (hclose : c ≠ ']') :
    nextItem isFirst text = .ok (.more (c :: more)) := by
  cases hlead with
  | first hblanks => simp [nextItem, skipBlanks_append_cons hblanks hblank, hclose]
  | next hbefore hblanks =>
      have hcomma : isBlank ',' = false := by decide
      simp [nextItem, skipBlanks_append_cons hbefore hcomma,
        skipBlanks_append_cons hblanks hblank, hclose]

theorem closeList_eq_ok {text rest : List Char} :
    closeList text = .ok rest ↔ ∃ blanks, Blanks blanks ∧ text = blanks ++ ']' :: rest := by
  constructor
  · intro hclose
    obtain ⟨blanks, hblanks, htext⟩ := exists_blanks_append text
    unfold closeList at hclose
    split at hclose
    · simp at hclose
    · next more hskip =>
      obtain rfl : more = rest := by simpa using hclose
      exact ⟨blanks, hblanks, by rw [htext, hskip]⟩
    · split at hclose <;> simp at hclose
    · simp at hclose
  · rintro ⟨blanks, hblanks, rfl⟩
    simp [closeList, skipBlanks_append_cons hblanks (show isBlank ']' = false by decide)]

/-! ## Objects -/

theorem nextMember_eq_stop {bound : Nat} {isFirst : Bool} {text rest : List Char} :
    nextMember bound isFirst text = .ok (.stop rest) ↔
      ∃ blanks, Blanks blanks ∧ text = blanks ++ '\x7d' :: rest := by
  have hkey : ∀ {text}, readKey bound text ≠ .ok (.stop rest) := by
    intro text
    unfold readKey
    split <;> simp
  constructor
  · intro hnext
    obtain ⟨blanks, hblanks, htext⟩ := exists_blanks_append text
    unfold nextMember at hnext
    split at hnext
    · simp at hnext
    · next c more hskip =>
      split at hnext
      · next hclose =>
        obtain rfl : more = rest := by simpa using hnext
        exact ⟨blanks, hblanks, by rw [htext, hskip, hclose]⟩
      · split at hnext
        · split at hnext
          · exact absurd hnext hkey
          · simp at hnext
        · split at hnext
          · split at hnext
            · simp at hnext
            · split at hnext
              · exact absurd hnext hkey
              · split at hnext <;> simp at hnext
          · simp at hnext
  · rintro ⟨blanks, hblanks, rfl⟩
    simp [nextMember, skipBlanks_append_cons hblanks (show isBlank '\x7d' = false by decide)]

theorem readKey_eq_key {bound : Nat} {text after : List Char} {name : String}
    (hread : readKey bound text = .ok (.key name after)) :
    ∃ key, SpellsText text key after ∧ name = String.ofList key := by
  unfold readKey at hread
  split at hread
  · simp at hread
  · next s rest hscan =>
    obtain ⟨rfl, rfl⟩ : s = name ∧ rest = after := by simpa using hread
    exact spellsText_of_scanText hscan

/-- A step to a member reads its key. -/
theorem lead_of_nextMember {bound : Nat} {isFirst : Bool} {text after : List Char} {name : String}
    (hnext : nextMember bound isFirst text = .ok (.key name after)) :
    ∃ more key, Lead isFirst text ('"' :: more) ∧ SpellsText more key after ∧
      name = String.ofList key := by
  obtain ⟨before, hbefore, htext⟩ := exists_blanks_append text
  unfold nextMember at hnext
  split at hnext
  · simp at hnext
  · next c more hskip =>
    rw [hskip] at htext
    split at hnext
    · simp at hnext
    · split at hnext
      · next hfirst =>
        split at hnext
        · next hquote =>
          obtain ⟨key, hkey, hname⟩ := readKey_eq_key hnext
          refine ⟨more, key, ?_, hkey, hname⟩
          rw [htext, hfirst, hquote]
          exact .first hbefore
        · simp at hnext
      · next hlater =>
        split at hnext
        · next hcomma =>
          obtain ⟨blanks, hblanks, hmore⟩ := exists_blanks_append more
          split at hnext
          · simp at hnext
          · next d tail hskip =>
            split at hnext
            · next hquote =>
              obtain ⟨key, hkey, hname⟩ := readKey_eq_key hnext
              refine ⟨tail, key, ?_, hkey, hname⟩
              rw [htext, hcomma, hmore, hskip, hquote, eq_false_of_ne_true hlater]
              exact .next hbefore hblanks
            · split at hnext <;> simp at hnext
        · simp at hnext

theorem nextMember_of_lead {bound : Nat} {isFirst : Bool} {text more key after : List Char}
    (hlead : Lead isFirst text ('"' :: more)) (hkey : SpellsText more key after)
    (hbound : more.length ≤ bound) :
    nextMember bound isFirst text = .ok (.key (String.ofList key) after) := by
  have hquote : isBlank '"' = false := by decide
  have hread : readKey bound more = .ok (.key (String.ofList key) after) := by
    rw [readKey, scanText_of_spellsText hkey hbound]
  cases hlead with
  | first hblanks => simp [nextMember, skipBlanks_append_cons hblanks hquote, hread]
  | next hbefore hblanks =>
      have hcomma : isBlank ',' = false := by decide
      simp [nextMember, skipBlanks_append_cons hbefore hcomma,
        skipBlanks_append_cons hblanks hquote, hread]

theorem readColon_eq_ok {text after : List Char} :
    readColon text = .ok after ↔ ∃ blanks, Blanks blanks ∧ text = blanks ++ ':' :: after := by
  constructor
  · intro hread
    obtain ⟨blanks, hblanks, htext⟩ := exists_blanks_append text
    unfold readColon at hread
    split at hread
    · simp at hread
    · next c more hskip =>
      split at hread
      · next hcolon =>
        obtain rfl : more = after := by simpa using hread
        exact ⟨blanks, hblanks, by rw [htext, hskip, hcolon]⟩
      · simp at hread
  · rintro ⟨blanks, hblanks, rfl⟩
    simp [readColon, skipBlanks_append_cons hblanks (show isBlank ':' = false by decide)]

theorem readColon_append {blanks : List Char} (hblanks : Blanks blanks) (after : List Char) :
    readColon (blanks ++ ':' :: after) = .ok after :=
  readColon_eq_ok.2 ⟨blanks, hblanks, rfl⟩

/-! ## Choices -/

theorem readName_eq_ok {bound : Nat} {names : List String} {text after : List Char} {name : String}
    (hread : readName bound names text = .ok (name, after)) :
    name ∈ names ∧ ∃ value, SpellsText text value after ∧ name = String.ofList value := by
  unfold readName at hread
  split at hread
  · simp at hread
  · next s rest hscan =>
    split at hread
    · next hmem =>
      obtain ⟨rfl, rfl⟩ : s = name ∧ rest = after := by simpa using hread
      exact ⟨by simpa using hmem, spellsText_of_scanText hscan⟩
    · simp at hread

theorem readName_of_spellsText {bound : Nat} {names : List String} {text value after : List Char}
    (htext : SpellsText text value after) (hbound : text.length ≤ bound)
    (hname : String.ofList value ∈ names) :
    readName bound names text = .ok (String.ofList value, after) := by
  simp [readName, scanText_of_spellsText htext hbound, hname]

theorem readUnit_eq_ok {bound : Nat} {text after : List Char} :
    readUnit bound text = .ok after ↔
      ∃ blanks, Blanks blanks ∧ text = blanks ++ 'n' :: 'u' :: 'l' :: 'l' :: after := by
  constructor
  · intro hread
    obtain ⟨blanks, hblanks, htext⟩ := exists_blanks_append text
    unfold readUnit at hread
    split at hread
    · next more hskip =>
      obtain rfl := scanWord_eq_ok.1 hread
      exact ⟨blanks, hblanks, by rw [htext, hskip]; rfl⟩
    · simp at hread
    · simp at hread
  · rintro ⟨blanks, hblanks, rfl⟩
    simp [readUnit, skipBlanks_append_cons hblanks (show isBlank 'n' = false by decide), scanNull,
      scanWord]

theorem readUnit_append {bound : Nat} {blanks : List Char} (hblanks : Blanks blanks)
    (after : List Char) :
    readUnit bound (blanks ++ 'n' :: 'u' :: 'l' :: 'l' :: after) = .ok after :=
  readUnit_eq_ok.2 ⟨blanks, hblanks, rfl⟩

/-! ## Records -/

theorem missingField?_eq_none {record : RecordShape ρ} {members : List (String × Document)} :
    missingField? record members = none ↔
      ∀ field ∈ record.fields, field.presence = .required →
        field.name ∈ members.map Prod.fst := by
  simp only [missingField?, Option.map_eq_none_iff, List.find?_eq_none]
  refine forall₂_congr fun field _ => ?_
  simp only [Bool.and_eq_true, beq_iff_eq, Bool.not_eq_true', not_and,
    Bool.not_eq_false, List.any_eq_true, List.mem_map]

theorem firstWithoutDefault?_eq_none {index : Nat} {fields : List (Field ρ)} :
    firstWithoutDefault? index fields = none ↔
      ∀ field ∈ fields, field.presence = .defaulted := by
  induction fields generalizing index with
  | nil => simp [firstWithoutDefault?]
  | cons field fields ih =>
      by_cases hdefault : field.presence = .defaulted
      · simp [firstWithoutDefault?, hdefault, ih]
      · simp [firstWithoutDefault?, hdefault]

/-! ## Nesting -/

theorem nested_eq_ok {inner : Option (Shape ρ → Reader)} {rest : List Char}
    {body : (Shape ρ → Reader) → Scanned Document} {result : Document × List Char}
    (hnested : nested inner rest body = .ok result) :
    ∃ read, inner = some read ∧ body read = .ok result := by
  cases inner with
  | none => simp [nested] at hnested
  | some read => exact ⟨read, rfl, hnested⟩

end OpSchema.Json
