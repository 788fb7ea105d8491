import OpSchema.Proofs.Signature.WellFormed
import OpSchema.Proofs.Text.Runs

/-!
# A rendered slot can be read back

The text of a slot puts the letters of its type, up to two marks of aliasings, the sign of
an optional or a list, and the name one behind the other, with nothing quoted:

```text
Tensor(a|b!)? name      letters, mark, sign, name
Tensor(a)[](b) name     letters, mark of the elements, sign, own mark, name
int[](b) name           letters, sign, own mark, name
```

Still the text of a slot with sound aliasings tells all of these, whatever the name is.
They are found one after the other from the front, each where the next one must begin.

* The name stands behind the first blank (`Slot.IsSound.space_notMem_render`).
* Then the letters end at the first other character, and a mark stands between a pair of
  parentheses, without another one inside (`Aliasing.render_append_inj`).
* What is between the parentheses are symbols without bars, so the bars separate them
  (`Aliasing.inside_inj`).

Soundness is needed for the last two: a symbol of an unsound aliasing could have a bar or a
parenthesis in it, and a write without a set would look like an empty list of symbols.
-/

namespace OpSchema

/-! ## Marks -/

/-- The characters of alias symbols. -/
def isSymbolChar (c : Char) : Bool := c.isAlphanum || c == '_' || c == '*'

theorem isSymbolChar_of_mem {symbol : String} (hsymbol : symbol = "*" ∨ IsIdentifier symbol)
    {c : Char} (hc : c ∈ symbol.toList) : isSymbolChar c = true := by
  rw [← isAliasSymbol_iff, isAliasSymbol, Bool.or_eq_true, beq_iff_eq] at hsymbol
  rcases hsymbol with rfl | hidentifier
  · obtain rfl : c = '*' := by simpa [wildcardSymbol] using hc
    decide
  · unfold isIdentifier at hidentifier
    split at hidentifier
    · simp at hidentifier
    · next first others htext =>
      rw [htext] at hc
      simp only [Bool.and_eq_true, Bool.or_eq_true, List.all_eq_true] at hidentifier
      obtain ⟨hfirst, hothers⟩ := hidentifier
      simp only [isSymbolChar, Char.isAlphanum, Bool.or_eq_true] at hothers ⊢
      rcases List.mem_cons.1 hc with rfl | hc
      · exact .inl (hfirst.imp_left .inl)
      · exact .inl (hothers c hc)

namespace Aliasing

variable {a b : Aliasing}

/-- What a mark has between its parentheses. -/
def inside (a : Aliasing) : List Char :=
  ['|'].intercalate (a.sets.symbols.map String.toList) ++ if a.isWrite then ['!'] else []

theorem toList_render (a : Aliasing) :
    a.render.toList =
      if a.sets.isEmpty && !a.isWrite then [] else '(' :: (a.inside ++ [')']) := by
  unfold render
  split
  · rfl
  · cases hwrite : a.isWrite <;> simp [inside, hwrite]

/-- A sound aliasing has no mark if it has no sets, and otherwise its mark is between
parentheses. -/
theorem IsSound.render_cases (hsound : a.IsSound) :
    (a.sets = ∅ ∧ a.isWrite = false ∧ a.render.toList = []) ∨
      (a.sets.symbols ≠ [] ∧ a.render.toList = '(' :: (a.inside ++ [')'])) := by
  by_cases hempty : a.sets.symbols = []
  · have hread : a.isWrite = false := by
      apply eq_false_of_ne_true
      intro hwrite
      obtain ⟨symbol, hsymbol⟩ := hsound.write hwrite
      change symbol ∈ a.sets.symbols at hsymbol
      rw [hempty] at hsymbol
      exact List.not_mem_nil hsymbol
    refine .inl ⟨SymbolSet.ext_symbols hempty, hread, ?_⟩
    rw [toList_render, if_pos (by simp [SymbolSet.isEmpty, hempty, hread])]
  · refine .inr ⟨hempty, ?_⟩
    rw [toList_render, if_neg (by simp [SymbolSet.isEmpty, hempty])]

theorem mem_intercalate_bar {parts : List (List Char)} {c : Char}
    (hc : c ∈ ['|'].intercalate parts) : c = '|' ∨ ∃ part ∈ parts, c ∈ part := by
  induction parts with
  | nil => simp at hc
  | cons part parts ih =>
      cases parts with
      | nil => simpa using Or.inr hc
      | cons next parts =>
          rw [List.intercalate_cons_cons] at hc
          simp only [List.mem_append, List.mem_singleton] at hc
          rcases hc with (hc | hc) | hc
          · exact .inr ⟨part, List.mem_cons_self, hc⟩
          · exact .inl hc
          · exact (ih hc).imp_right fun ⟨other, hother, hc⟩ =>
              ⟨other, List.mem_cons_of_mem part hother, hc⟩

/-- The symbols of a sound aliasing leave out all characters but those of symbols and the
bars between them. -/
theorem IsSound.joined_chars (hsound : a.IsSound) {c : Char}
    (hc : c ∈ ['|'].intercalate (a.sets.symbols.map String.toList)) :
    (isSymbolChar c || c == '|') = true := by
  rw [Bool.or_eq_true, beq_iff_eq]
  rcases mem_intercalate_bar hc with rfl | ⟨part, hpart, hc⟩
  · exact .inr rfl
  · obtain ⟨symbol, hsymbol, rfl⟩ := List.mem_map.1 hpart
    exact .inl (isSymbolChar_of_mem (hsound.symbols symbol hsymbol) hc)

theorem IsSound.inside_chars (hsound : a.IsSound) {c : Char} (hc : c ∈ a.inside) :
    (isSymbolChar c || c == '|' || c == '!') = true := by
  rw [inside, List.mem_append] at hc
  rw [Bool.or_eq_true]
  rcases hc with hc | hc
  · exact .inl (hsound.joined_chars hc)
  · split at hc
    · exact .inr (by simpa using hc)
    · simp at hc

/-- The two have the same sets and are both written or both not. -/
def SameMark (a b : Aliasing) : Prop := a.sets = b.sets ∧ a.isWrite = b.isWrite

theorem SameMark.render_eq (hsame : a.SameMark b) : a.render = b.render := by
  rw [render, render, hsame.1, hsame.2]

/-- What is between the parentheses tells the symbols and whether they are written. -/
theorem inside_inj (ha : a.IsSound) (hb : b.IsSound) (hanonempty : a.sets.symbols ≠ [])
    (hbnonempty : b.sets.symbols ≠ []) (hsame : a.inside = b.inside) : a.SameMark b := by
  have hend : ∀ c : Aliasing, ∀ d ∈ (if c.isWrite then ['!'] else []).head?,
      (isSymbolChar d || d == '|') = false := by
    intro c d hd
    split at hd
    · obtain rfl : '!' = d := by simpa using hd
      decide
    · simp at hd
  have hsplit : ∀ {c : Aliasing}, c.IsSound → c.sets.symbols ≠ [] →
      (['|'].intercalate (c.sets.symbols.map String.toList)).splitOn '|' =
        c.sets.symbols.map String.toList := by
    intro c hc hnonempty
    refine List.splitOn_intercalate _ ?_ (by simpa using hnonempty)
    intro part hpart hbar
    obtain ⟨symbol, hsymbol, rfl⟩ := List.mem_map.1 hpart
    exact absurd (isSymbolChar_of_mem (hc.symbols symbol hsymbol) hbar) (by decide)
  obtain ⟨hjoined, hwrite⟩ := Text.append_run_inj (fun c hc => ha.joined_chars hc)
    (fun c hc => hb.joined_chars hc) (hend a) (hend b) hsame
  constructor
  · have hparts := congrArg (List.splitOn '|') hjoined
    rw [hsplit ha hanonempty, hsplit hb hbnonempty] at hparts
    exact SymbolSet.ext_symbols (List.map_injective_iff.2 (fun _ _ => String.toList_inj.1) hparts)
  · cases hfirst : a.isWrite <;> cases hsecond : b.isWrite <;>
      simp [hfirst, hsecond] at hwrite ⊢

/-- **A mark at the front of a text can be told**, if no further one may follow. -/
theorem render_append_inj (ha : a.IsSound) (hb : b.IsSound) {rest others : List Char}
    (hrest : rest.head? ≠ some '(') (hothers : others.head? ≠ some '(')
    (hsame : a.render.toList ++ rest = b.render.toList ++ others) :
    a.SameMark b ∧ rest = others := by
  rcases ha.render_cases with ⟨hasets, hawrite, hamark⟩ | ⟨hanonempty, hamark⟩ <;>
    rcases hb.render_cases with ⟨hbsets, hbwrite, hbmark⟩ | ⟨hbnonempty, hbmark⟩ <;>
    rw [hamark, hbmark] at hsame
  · exact ⟨⟨hasets.trans hbsets.symm, hawrite.trans hbwrite.symm⟩, hsame⟩
  · exact absurd (congrArg List.head? hsame) hrest
  · exact absurd (congrArg List.head? hsame.symm) hothers
  · -- The first closing parenthesis ends the mark.
    have hinside : ∀ {c : Aliasing}, c.IsSound → ∀ d ∈ c.inside, (d != ')') = true := by
      intro c hc d hd
      rw [bne_iff_ne]
      rintro rfl
      exact absurd (hc.inside_chars hd) (by decide)
    simp only [List.cons_append, List.append_assoc, List.cons.injEq, true_and] at hsame
    obtain ⟨hmark, htail⟩ := Text.append_run_inj (hinside ha) (hinside hb) (by simp) (by simp) hsame
    exact ⟨inside_inj ha hb hanonempty hbnonempty hmark, by simpa using htail⟩

end Aliasing

/-! ## Types -/

namespace SlotType

/-- The letters of a type. -/
def letters : SlotType → String
  | tensor | optionalTensor | tensorList => "Tensor"
  | int | intList => "int"
  | float => "float"
  | bool => "bool"
  | scalar => "Scalar"
  | str => "str"
  | generic => "Any"

/-- The sign of an optional or a list. -/
def sign : SlotType → String
  | optionalTensor => "?"
  | tensorList | intList => "[]"
  | tensor | int | float | bool | scalar | str | generic => ""

/-- The letters and the sign make the type. -/
theorem eq_of_letters_of_sign {first second : SlotType} (hletters : first.letters = second.letters)
    (hsign : first.sign = second.sign) : first = second := by
  have hlabel : ∀ type : SlotType, type.label = type.letters ++ type.sign := by
    intro type
    cases type <;> decide
  have hsame : ofLabel? first.label = ofLabel? second.label := by
    rw [hlabel, hlabel, hletters, hsign]
  rw [ofLabel?_label, ofLabel?_label] at hsame
  exact Option.some.inj hsame

/-- The aliasing whose mark stands in front of the sign, given that of the slot and that of
its first element. -/
def before (type : SlotType) (top element : Aliasing) : Aliasing :=
  match type with
  | tensorList => element
  | intList => .none
  | _ => top

/-- The aliasing whose mark stands behind the sign. -/
def behind (type : SlotType) (top : Aliasing) : Aliasing :=
  match type with
  | tensorList | intList => top
  | _ => .none

/-- The mark of the slot itself is one of the two. -/
theorem sameMark_top {type : SlotType} {top element other otherElement : Aliasing}
    (hbefore : (type.before top element).SameMark (type.before other otherElement))
    (hbehind : (type.behind top).SameMark (type.behind other)) : top.SameMark other := by
  cases type with
  | tensorList => exact hbehind
  | intList => exact hbehind
  | _ => exact hbefore

theorem sameMark_before {type : SlotType} {top element other otherElement : Aliasing}
    (htop : top.SameMark other) (helement : type = tensorList → element.SameMark otherElement) :
    (type.before top element).SameMark (type.before other otherElement) := by
  cases type with
  | tensorList => exact helement rfl
  | intList => exact ⟨rfl, rfl⟩
  | _ => exact htop

theorem sameMark_behind {type : SlotType} {top other : Aliasing} (htop : top.SameMark other) :
    (type.behind top).SameMark (type.behind other) := by
  cases type with
  | tensorList => exact htop
  | intList => exact htop
  | _ => exact ⟨rfl, rfl⟩

end SlotType

namespace Slot

variable {slot first second : Slot}

/-- The aliasing of a slot, which is empty where none is given. -/
def top (slot : Slot) : Aliasing := slot.aliasing.getD .none

/-- The aliasing of the first element of a slot, which is empty where none is given. -/
def element (slot : Slot) : Aliasing := slot.top.contained.head?.getD .none

theorem mark_aliasing (slot : Slot) : SlotType.mark slot.aliasing = slot.top.render := by
  unfold top
  cases slot.aliasing <;> rfl

theorem mark_element (slot : Slot) :
    SlotType.mark (slot.aliasing.bind fun a => a.contained.head?) = slot.element.render := by
  unfold element top
  cases slot.aliasing with
  | none => rfl
  | some a =>
      change SlotType.mark a.contained.head? = (a.contained.head?.getD Aliasing.none).render
      cases a.contained.head? <;> rfl

/-- The parts of the text in front of the name. -/
theorem type_render (slot : Slot) :
    slot.type.render slot.aliasing = slot.type.letters ++
      (slot.type.before slot.top slot.element).render ++ slot.type.sign ++
        (slot.type.behind slot.top).render := by
  have hnone : Aliasing.none.render = "" := rfl
  unfold SlotType.render
  rw [mark_aliasing, mark_element]
  cases slot.type <;>
    simp [SlotType.before, SlotType.behind, SlotType.letters, SlotType.sign, SlotType.label, hnone]

/-! ### Sound slots -/

theorem isSound_none : Aliasing.none.IsSound where
  symbols _ hsymbol := absurd hsymbol List.not_mem_nil
  wildcard hwildcard := absurd hwildcard List.not_mem_nil
  write hwrite := absurd hwrite Bool.false_ne_true

theorem IsSound.isSound_top (hsound : slot.IsSound) : slot.top.IsSound := by
  unfold Slot.top
  cases hgiven : slot.aliasing with
  | none => exact isSound_none
  | some a => exact hsound a hgiven 0 a (.top a)

theorem IsSound.isSound_element (hsound : slot.IsSound) : slot.element.IsSound := by
  unfold Slot.element Slot.top
  cases hgiven : slot.aliasing with
  | none => exact isSound_none
  | some a =>
      change (a.contained.head?.getD Aliasing.none).IsSound
      cases hhead : a.contained.head? with
      | none => exact isSound_none
      | some b => exact hsound a hgiven 1 b (.inside (List.mem_of_head? hhead) (.top b))

theorem IsSound.isSound_before (hsound : slot.IsSound) :
    (slot.type.before slot.top slot.element).IsSound := by
  unfold SlotType.before
  split
  · exact hsound.isSound_element
  · exact isSound_none
  · exact hsound.isSound_top

theorem IsSound.isSound_behind (hsound : slot.IsSound) : (slot.type.behind slot.top).IsSound := by
  unfold SlotType.behind
  split
  · exact hsound.isSound_top
  · exact hsound.isSound_top
  · exact isSound_none

/-! ### Reading from the front -/

/-- What follows the letters, the mark in front of the sign left out. -/
def signed (slot : Slot) : List Char :=
  slot.type.sign.toList ++ (slot.type.behind slot.top).render.toList

/-- All of the text in front of the name. -/
theorem toList_type_render (slot : Slot) :
    (slot.type.render slot.aliasing).toList = slot.type.letters.toList ++
      ((slot.type.before slot.top slot.element).render.toList ++ slot.signed) := by
  rw [type_render]
  simp [signed]

theorem head?_signed (slot : Slot) :
    slot.signed.head? = none ∨ slot.signed.head? = some '?' ∨ slot.signed.head? = some '[' := by
  have hnone : Aliasing.none.render = "" := rfl
  unfold signed
  cases slot.type <;> simp [SlotType.sign, SlotType.behind, hnone]

theorem isAlpha_letters (type : SlotType) : ∀ c ∈ type.letters.toList, c.isAlpha = true := by
  have hall : type.letters.toList.all Char.isAlpha = true := by cases type <;> decide
  exact List.all_eq_true.1 hall

/-- The letters end where a mark or a sign begins. -/
theorem IsSound.head?_after_letters (hsound : slot.IsSound) :
    ∀ c ∈ ((slot.type.before slot.top slot.element).render.toList ++ slot.signed).head?,
      c.isAlpha = false := by
  intro c hc
  rcases hsound.isSound_before.render_cases with ⟨-, -, hmark⟩ | ⟨-, hmark⟩ <;> rw [hmark] at hc
  · rw [List.nil_append] at hc
    rcases head?_signed slot with hnone | hsign | hsign
    · simp [hnone] at hc
    · obtain rfl : '?' = c := Option.some.inj (hsign.symm.trans hc)
      decide
    · obtain rfl : '[' = c := Option.some.inj (hsign.symm.trans hc)
      decide
  · obtain rfl : '(' = c := Option.some.inj hc
    decide

/-- The characters of signs. -/
def isSignChar (c : Char) : Bool := c == '?' || c == '[' || c == ']'

theorem isSignChar_sign (type : SlotType) : ∀ c ∈ type.sign.toList, isSignChar c = true := by
  have hall : type.sign.toList.all isSignChar = true := by cases type <;> decide
  exact List.all_eq_true.1 hall

/-- **The text in front of the name tells the type and both marks.** -/
theorem type_render_inj (hfirst : first.IsSound) (hsecond : second.IsSound)
    (hsame : first.type.render first.aliasing = second.type.render second.aliasing) :
    first.type = second.type ∧
      (first.type.before first.top first.element).SameMark
        (second.type.before second.top second.element) ∧
      (first.type.behind first.top).SameMark (second.type.behind second.top) := by
  have hnoMark : ∀ slot : Slot, slot.signed.head? ≠ some '(' := by
    intro slot hhead
    have hsign := head?_signed slot
    simp [hhead] at hsign
  have hnoSign : ∀ slot : Slot, slot.IsSound →
      ∀ c ∈ (slot.type.behind slot.top).render.toList.head?, isSignChar c = false := by
    intro slot hsound c hc
    rcases hsound.isSound_behind.render_cases with ⟨-, -, hmark⟩ | ⟨-, hmark⟩ <;> rw [hmark] at hc
    · simp at hc
    · obtain rfl : '(' = c := Option.some.inj hc
      decide
  have hchars := congrArg String.toList hsame
  rw [toList_type_render, toList_type_render] at hchars
  obtain ⟨hletters, hmarked⟩ := Text.append_run_inj (isAlpha_letters first.type)
    (isAlpha_letters second.type) hfirst.head?_after_letters hsecond.head?_after_letters hchars
  obtain ⟨hbefore, hsigned⟩ := Aliasing.render_append_inj hfirst.isSound_before
    hsecond.isSound_before (hnoMark first) (hnoMark second) hmarked
  obtain ⟨hsign, hmark⟩ := Text.append_run_inj (isSignChar_sign first.type)
    (isSignChar_sign second.type) (hnoSign first hfirst) (hnoSign second hsecond) hsigned
  rw [← List.append_nil (first.type.behind _).render.toList,
    ← List.append_nil (second.type.behind _).render.toList] at hmark
  obtain ⟨hbehind, -⟩ := Aliasing.render_append_inj hfirst.isSound_behind
    hsecond.isSound_behind (by simp) (by simp) hmark
  have htype := SlotType.eq_of_letters_of_sign (String.toList_inj.1 hletters)
    (String.toList_inj.1 hsign)
  exact ⟨htype, hbefore, hbehind⟩

/-! ### The name -/

/-- There is no blank in front of the name. -/
theorem IsSound.space_notMem_render (hsound : slot.IsSound) :
    ' ' ∉ (slot.type.render slot.aliasing).toList := by
  have hmark : ∀ {a : Aliasing}, a.IsSound → ' ' ∉ a.render.toList := by
    intro a ha hspace
    rcases ha.render_cases with ⟨-, -, hrender⟩ | ⟨-, hrender⟩ <;> rw [hrender] at hspace
    · exact List.not_mem_nil hspace
    · have hinside : ' ' ∈ a.inside := by simpa using hspace
      exact absurd (ha.inside_chars hinside) (by decide)
  have hletters : ' ' ∉ slot.type.letters.toList :=
    fun hspace => absurd (isAlpha_letters slot.type ' ' hspace) (by decide)
  have hsign : ' ' ∉ slot.type.sign.toList :=
    fun hspace => absurd (isSignChar_sign slot.type ' ' hspace) (by decide)
  rw [toList_type_render, signed]
  simp only [List.mem_append, not_or]
  exact ⟨hletters, hmark hsound.isSound_before, hsign, hmark hsound.isSound_behind⟩

/-- What stands behind the type: nothing, or a blank and the name. -/
def naming (slot : Slot) : List Char :=
  if slot.name.isEmpty then [] else ' ' :: slot.name.toList

theorem toList_render (slot : Slot) :
    slot.render.toList = (slot.type.render slot.aliasing).toList ++ slot.naming := by
  unfold render naming
  dsimp only
  split <;> simp

theorem name_eq_of_naming (hsame : first.naming = second.naming) : first.name = second.name := by
  unfold naming at hsame
  split at hsame <;> split at hsame
  · next hfirst hsecond => rw [String.isEmpty_iff.1 hfirst, String.isEmpty_iff.1 hsecond]
  · simp at hsame
  · simp at hsame
  · exact String.toList_inj.1 (List.cons.inj hsame).2

/-- The two slots show the same: name, type, own sets and whether they are written, and, for
a list of tensors, the same of the first element. -/
structure LooksLike (first second : Slot) : Prop where
  name : first.name = second.name
  type : first.type = second.type
  sets : first.top.sets = second.top.sets
  isWrite : first.top.isWrite = second.top.isWrite
  elementSets : first.type = .tensorList → first.element.sets = second.element.sets
  elementIsWrite : first.type = .tensorList → first.element.isWrite = second.element.isWrite

/-- Slots with the same text show the same. -/
theorem looksLike_of_render (hfirst : first.IsSound) (hsecond : second.IsSound)
    (hsame : first.render = second.render) : first.LooksLike second := by
  have hnoSpace : ∀ slot : Slot, slot.IsSound →
      ∀ c ∈ (slot.type.render slot.aliasing).toList, (c != ' ') = true := by
    intro slot hsound c hc
    rw [bne_iff_ne]
    rintro rfl
    exact hsound.space_notMem_render hc
  have hspace : ∀ slot : Slot, ∀ c ∈ slot.naming.head?, (c != ' ') = false := by
    intro slot c hc
    unfold naming at hc
    split at hc
    · simp at hc
    · obtain rfl : ' ' = c := Option.some.inj hc
      decide
  have hchars := congrArg String.toList hsame
  rw [toList_render, toList_render] at hchars
  obtain ⟨hrendered, hnaming⟩ := Text.append_run_inj (hnoSpace first hfirst)
    (hnoSpace second hsecond) (hspace first) (hspace second) hchars
  obtain ⟨htype, hbefore, hbehind⟩ :=
    type_render_inj hfirst hsecond (String.toList_inj.1 hrendered)
  rw [← htype] at hbefore hbehind
  obtain ⟨hsets, hwrite⟩ := SlotType.sameMark_top hbefore hbehind
  have helement : first.type = .tensorList → first.element.SameMark second.element := by
    intro hlist
    rw [hlist] at hbefore
    exact hbefore
  exact ⟨name_eq_of_naming hnaming, htype, hsets, hwrite, fun hlist => (helement hlist).1,
    fun hlist => (helement hlist).2⟩

/-- The text of a slot depends on what it shows and on nothing else. -/
theorem LooksLike.render_eq (hlooks : first.LooksLike second) : first.render = second.render := by
  have htop : first.top.SameMark second.top := ⟨hlooks.sets, hlooks.isWrite⟩
  have hbefore := SlotType.sameMark_before htop fun hlist =>
    ⟨hlooks.elementSets hlist, hlooks.elementIsWrite hlist⟩
  have hbehind : (first.type.behind first.top).SameMark (first.type.behind second.top) :=
    SlotType.sameMark_behind htop
  have hrendered : first.type.render first.aliasing = second.type.render second.aliasing := by
    rw [type_render, type_render, hbefore.render_eq, hbehind.render_eq, hlooks.type]
  rw [render, render, hrendered, hlooks.name]

/-- **A rendered slot is unambiguous.**  Slots with valid aliasings have the same text
exactly if they show the same; the names can be any. -/
theorem render_eq_iff_looksLike {label other : String}
    (hfirst : first.validateAliasing label = .ok ())
    (hsecond : second.validateAliasing other = .ok ()) :
    first.render = second.render ↔ first.LooksLike second := by
  rw [validateAliasing_eq_ok] at hfirst hsecond
  exact ⟨looksLike_of_render hfirst hsecond, LooksLike.render_eq⟩

/-- A list of tensors with a mark of its own and one of its elements, and a name with a
blank. -/
def markedList : Slot :=
  ⟨"all of x", .tensorList, some ⟨.ofList ["b", "a"], true, [.read "c"]⟩, false⟩

/-- The same with a further element, which is not shown, and given by keyword. -/
def longerMarkedList : Slot :=
  ⟨"all of x", .tensorList, some ⟨.ofList ["a", "b"], true, [.read "c", .write "d"]⟩, true⟩

/-- The two lists are rendered alike, and so they show the same. -/
theorem looksLike_markedList :
    markedList.validateAliasing "x" = .ok () ∧ longerMarkedList.validateAliasing "y" = .ok () ∧
    markedList.render = "Tensor(c)[](a|b!) all of x" ∧
    markedList.LooksLike longerMarkedList := by
  have hvalid : markedList.validateAliasing "x" = .ok () := by decide
  have hlonger : longerMarkedList.validateAliasing "y" = .ok () := by decide
  refine ⟨hvalid, hlonger, by decide, ?_⟩
  exact (render_eq_iff_looksLike hvalid hlonger).1 (by decide)

end Slot

end OpSchema
