import Mathlib.Data.List.Induction
import OpSchema.Conformance.CaseLog
import OpSchema.Proofs.Json.Canonical
import OpSchema.Proofs.Text.ByteOrder

/-!
# Extra members of a record

A record of a case takes extra members in any number of calls.  A member with a key of the
envelope is dropped, and a later member takes the place of an earlier one with its key.  So
whatever is handed to a record, it is printed as one object without repeated keys: the
envelope as it was made, and behind it one member for each other key, in the order of the
bytes of the keys (`CaseLog.line_after_calls`).

## Strategy

* **Collecting.**  What is collected from a list is the last element of each key
  (`Order.mem_collect_iff`), and ascending lists with the same elements are equal.
* **One call.**  A member is there after a call if the call has it, or if it was there and
  the call does not have its key (`CaseLog.mem_extra_withExtra`).
* **All calls.**  By induction on the calls, a member is there if it comes from the last call
  that has its key (`CaseLog.mem_extra_foldl`).  That two calls commute and that a call with
  keys of the envelope does nothing follow from what one call does.
-/

namespace OpSchema

/-! ## Collecting -/

namespace Order

variable {α : Type} {key : α → String} {a b : α} {l l' : List α}

/-- The element is in the list, and no later one has its key. -/
def IsLast (key : α → String) (a : α) (l : List α) : Prop :=
  ∃ before after, l = before ++ a :: after ∧ key a ∉ after.map key

theorem IsLast.mem (hlast : IsLast key a l) : a ∈ l := by
  obtain ⟨before, after, rfl, -⟩ := hlast
  simp

theorem not_isLast_nil : ¬IsLast key a [] :=
  fun hlast => absurd hlast.mem List.not_mem_nil

theorem isLast_cons : IsLast key a (b :: l) ↔ IsLast key a l ∨ a = b ∧ key a ∉ l.map key := by
  constructor
  · rintro ⟨before, after, hsplit, hafter⟩
    cases before with
    | nil =>
        obtain ⟨rfl, rfl⟩ := List.cons.inj hsplit
        exact .inr ⟨rfl, hafter⟩
    | cons c before =>
        obtain ⟨-, hsplit⟩ := List.cons.inj hsplit
        exact .inl ⟨before, after, hsplit, hafter⟩
  · rintro (⟨before, after, rfl, hafter⟩ | ⟨rfl, hlater⟩)
    · exact ⟨b :: before, after, rfl, hafter⟩
    · exact ⟨[], l, rfl, hlater⟩

/-- The last element of a key is in the second list unless that one lacks the key. -/
theorem isLast_append : IsLast key a (l ++ l') ↔
    IsLast key a l' ∨ IsLast key a l ∧ key a ∉ l'.map key := by
  induction l with
  | nil => simp [not_isLast_nil]
  | cons b l ih =>
      rw [List.cons_append, isLast_cons, isLast_cons, ih, List.map_append, List.mem_append]
      grind

theorem mem_keys_filter {p : String → Bool} {k : String} :
    k ∈ (l.filter fun a => p (key a)).map key ↔ p k = true ∧ k ∈ l.map key := by
  rw [List.mem_map, List.mem_map]
  constructor
  · rintro ⟨a, ha, rfl⟩
    obtain ⟨hmem, hkept⟩ := List.mem_filter.1 ha
    exact ⟨hkept, a, hmem, rfl⟩
  · rintro ⟨hkept, a, hmem, rfl⟩
    exact ⟨a, List.mem_filter.2 ⟨hmem, hkept⟩, rfl⟩

/-- Leaving out some keys does not change what is last of the others. -/
theorem isLast_filter {p : String → Bool} :
    IsLast key a (l.filter fun b => p (key b)) ↔ p (key a) = true ∧ IsLast key a l := by
  induction l with
  | nil => simp [not_isLast_nil]
  | cons b l ih =>
      rw [isLast_cons, List.filter_cons]
      split
      · next hkept =>
        rw [isLast_cons, ih, mem_keys_filter]
        grind
      · next hdropped =>
        rw [ih]
        grind

/-- A change that keeps the keys keeps what is last. -/
theorem isLast_map {f : α → α} (hkey : ∀ a, key (f a) = key a) :
    IsLast key b (l.map f) ↔ ∃ a, IsLast key a l ∧ f a = b := by
  constructor
  · rintro ⟨before, after, hsplit, hafter⟩
    obtain ⟨front, rest, rfl, rfl, hrest⟩ := List.map_eq_append_iff.1 hsplit
    obtain ⟨a, back, rfl, rfl, rfl⟩ := List.map_eq_cons_iff.1 hrest
    refine ⟨a, ⟨front, back, rfl, ?_⟩, rfl⟩
    rw [List.map_map, hkey] at hafter
    simpa [Function.comp_def, hkey] using hafter
  · rintro ⟨a, ⟨before, after, rfl, hafter⟩, rfl⟩
    refine ⟨before.map f, after.map f, by rw [List.map_append, List.map_cons], ?_⟩
    rw [List.map_map, hkey]
    simpa [Function.comp_def, hkey] using hafter

/-- An element whose key is taken is not added. -/
theorem insertNew_of_mem (hl : Ascending key l) (htaken : key a ∈ l.map key) :
    insertNew key a l = l := by
  induction l with
  | nil => exact absurd htaken List.not_mem_nil
  | cons b l ih =>
      obtain ⟨hbelow, htail⟩ := List.pairwise_cons.1 hl
      rw [insertNew]
      rcases List.mem_cons.1 htaken with hsame | htaken
      · rw [if_neg (hsame ▸ String.lt_irrefl (key b)), if_pos hsame]
      · obtain ⟨c, hc, hkey⟩ := List.mem_map.1 htaken
        have hless : key b < key a := hkey ▸ hbelow c hc
        rw [if_neg (String.lt_asymm hless), if_neg (String.ne_of_lt hless).symm, ih htail htaken]

theorem mem_insertNew_iff (hl : Ascending key l) :
    b ∈ insertNew key a l ↔ b ∈ l ∨ b = a ∧ key a ∉ l.map key := by
  by_cases htaken : key a ∈ l.map key
  · rw [insertNew_of_mem hl htaken]
    simp [htaken]
  · rw [(insertNew_perm htaken).mem_iff, List.mem_cons, or_comm]
    simp only [htaken, not_false_eq_true, and_true]

/-- **The last element of each key is collected.** -/
theorem mem_collect_iff : a ∈ collect key l ↔ IsLast key a l := by
  induction l with
  | nil => exact iff_of_false List.not_mem_nil not_isLast_nil
  | cons b l ih =>
      have hfold : collect key (b :: l) = insertNew key b (collect key l) := rfl
      rw [hfold, mem_insertNew_iff (ascending_collect key l), ih, isLast_cons, mem_keys_collect]
      exact or_congr_right (and_congr_right fun hsame => by rw [hsame])

/-- Every key of a list has a last element. -/
theorem exists_isLast_iff {k : String} : (∃ a, IsLast key a l ∧ key a = k) ↔ k ∈ l.map key := by
  simp only [← mem_collect_iff]
  rw [← List.mem_map, mem_keys_collect]

theorem Ascending.isLast_iff (hl : Ascending key l) : IsLast key a l ↔ a ∈ l := by
  rw [← mem_collect_iff, hl.collect_eq_self]

/-- Ascending lists with the same elements are equal. -/
theorem Ascending.eq_of_mem_iff (hl : Ascending key l) (hl' : Ascending key l')
    (hmem : ∀ a, a ∈ l ↔ a ∈ l') : l = l' := by
  have hnodup : ∀ {l : List α}, Ascending key l → l.Nodup := fun hl =>
    hl.imp fun hless hsame => String.ne_of_lt hless (congrArg key hsame)
  have hperm : l.Perm l' := (List.perm_ext_iff_of_nodup (hnodup hl) (hnodup hl')).2 hmem
  refine hperm.eq_of_pairwise ?_ hl hl'
  intro a b _ _ hless hgreater
  exact absurd hgreater (String.lt_asymm hless)

end Order

namespace CaseLog

open Json (Document)
open Json.Document (canonicalMember)
open OpSchema.Order (IsLast)

variable {log : CaseLog} {members : List (String × Document)} {m : String × Document}
  {key : String}

/-! ## One call -/

/-- The key is not one of the envelope. -/
def isExtraKey (key : String) : Bool := !envelopeKeys.contains key

theorem isExtraKey_iff : isExtraKey key = true ↔ key ∉ envelopeKeys := by
  simp [isExtraKey]

/-- What a call adds: its members without those of the envelope, in canonical form. -/
def keptMembers (members : List (String × Document)) : List (String × Document) :=
  (members.filter fun m => isExtraKey m.1).map canonicalMember

theorem extra_withExtra (log : CaseLog) (members : List (String × Document)) :
    (log.withExtra members).extra = Order.collect Prod.fst (log.extra ++ keptMembers members) := rfl

@[simp] theorem envelope_withExtra (log : CaseLog) (members : List (String × Document)) :
    (log.withExtra members).envelope = log.envelope := rfl

theorem ascending_extra_withExtra (log : CaseLog) (members : List (String × Document)) :
    Order.Ascending Prod.fst (log.withExtra members).extra :=
  Order.ascending_collect _ _

theorem mem_keys_keptMembers :
    key ∈ (keptMembers members).map Prod.fst ↔ key ∉ envelopeKeys ∧ key ∈ members.map Prod.fst := by
  rw [keptMembers, Json.Document.keys_canonicalMember, Order.mem_keys_filter, isExtraKey_iff]

/-- The last member of a key is kept unless the key is one of the envelope. -/
theorem isLast_keptMembers : IsLast Prod.fst m (keptMembers members) ↔
    m.1 ∉ envelopeKeys ∧ ∃ d, IsLast Prod.fst (m.1, d) members ∧ m.2 = d.canonical := by
  have hkey : ∀ m, (canonicalMember m).1 = m.1 := fun _ => rfl
  rw [keptMembers, Order.isLast_map hkey]
  simp only [Order.isLast_filter, isExtraKey_iff]
  constructor
  · rintro ⟨⟨key, d⟩, ⟨hextra, hlast⟩, rfl⟩
    exact ⟨hextra, d, hlast, rfl⟩
  · obtain ⟨key, value⟩ := m
    rintro ⟨hextra, d, hlast, rfl⟩
    exact ⟨(key, d), ⟨hextra, hlast⟩, rfl⟩

/-- **After a call there are its members, and of those before the ones whose keys it lacks.** -/
theorem mem_extra_withExtra (hlog : Order.Ascending Prod.fst log.extra) :
    m ∈ (log.withExtra members).extra ↔ IsLast Prod.fst m (keptMembers members) ∨
      m ∈ log.extra ∧ m.1 ∉ (keptMembers members).map Prod.fst := by
  rw [extra_withExtra, Order.mem_collect_iff, Order.isLast_append, hlog.isLast_iff]

/-- Calls whose keys differ can change places. -/
theorem withExtra_comm (hlog : Order.Ascending Prod.fst log.extra)
    {first second : List (String × Document)}
    (hdisjoint : (first.map Prod.fst).Disjoint (second.map Prod.fst)) :
    (log.withExtra first).withExtra second = (log.withExtra second).withExtra first := by
  have hextra : ((log.withExtra first).withExtra second).extra =
      ((log.withExtra second).withExtra first).extra := by
    refine (ascending_extra_withExtra _ _).eq_of_mem_iff (ascending_extra_withExtra _ _) ?_
    intro m
    rw [mem_extra_withExtra (ascending_extra_withExtra _ _), mem_extra_withExtra hlog,
      mem_extra_withExtra (ascending_extra_withExtra _ _), mem_extra_withExtra hlog]
    have hfirst : IsLast Prod.fst m (keptMembers first) → m.1 ∈ (keptMembers first).map Prod.fst :=
      fun hlast => List.mem_map_of_mem hlast.mem
    have hsecond : IsLast Prod.fst m (keptMembers second) →
        m.1 ∈ (keptMembers second).map Prod.fst := fun hlast => List.mem_map_of_mem hlast.mem
    have hapart : m.1 ∈ (keptMembers first).map Prod.fst →
        m.1 ∉ (keptMembers second).map Prod.fst := by
      rw [mem_keys_keptMembers, mem_keys_keptMembers]
      exact fun hkept hother => hdisjoint hkept.2 hother.2
    grind
  exact congrArg (fun extra => { log with extra := extra }) hextra

/-- A call with keys of the envelope does nothing. -/
theorem withExtra_of_envelope (hlog : Order.Ascending Prod.fst log.extra)
    (henvelope : ∀ m ∈ members, m.1 ∈ envelopeKeys) : log.withExtra members = log := by
  have hkept : keptMembers members = [] := by
    rw [keptMembers, List.map_eq_nil_iff, List.filter_eq_nil_iff]
    intro m hm
    rw [isExtraKey_iff]
    exact fun hextra => hextra (henvelope m hm)
  have hextra : (log.withExtra members).extra = log.extra := by
    rw [extra_withExtra, hkept, List.append_nil, hlog.collect_eq_self]
  exact congrArg (fun extra => { log with extra := extra }) hextra

/-! ## All calls -/

/-- The last of the calls that has the key gives it the value.  A list of members stands for the
map in which the last member of a key counts. -/
def LastSupplied (calls : List (List (String × Document))) (key : String) (d : Document) : Prop :=
  ∃ before members after, calls = before ++ members :: after ∧ IsLast Prod.fst (key, d) members ∧
    ∀ later ∈ after, key ∉ later.map Prod.fst

theorem not_lastSupplied_nil {d : Document} : ¬LastSupplied [] key d := by
  rintro ⟨before, members, after, hsplit, -⟩
  have hsome : before ++ members :: after ≠ [] := by simp
  exact hsome hsplit.symm

/-- A further call has the last word on its own keys and leaves the others. -/
theorem lastSupplied_concat {calls : List (List (String × Document))} {d : Document} :
    LastSupplied (calls ++ [members]) key d ↔ IsLast Prod.fst (key, d) members ∨
      LastSupplied calls key d ∧ key ∉ members.map Prod.fst := by
  constructor
  · rintro ⟨before, supplier, after, hsplit, hlast, hafter⟩
    rcases List.eq_nil_or_concat after with rfl | ⟨between, final, rfl⟩
    · obtain ⟨-, hsame⟩ := List.append_inj' hsplit rfl
      obtain ⟨rfl, -⟩ := List.cons.inj hsame
      exact .inl hlast
    · rw [List.concat_eq_append, ← List.cons_append, ← List.append_assoc] at hsplit
      obtain ⟨hcalls, hsame⟩ := List.append_inj' hsplit rfl
      obtain ⟨rfl, -⟩ := List.cons.inj hsame
      rw [List.concat_eq_append] at hafter
      have hbetween : ∀ later ∈ between, key ∉ later.map Prod.fst := fun later hlater =>
        hafter later (List.mem_append_left _ hlater)
      exact .inr ⟨⟨before, supplier, between, hcalls, hlast, hbetween⟩, hafter members (by simp)⟩
  · rintro (hlast | ⟨⟨before, supplier, after, rfl, hlast, hafter⟩, hlacks⟩)
    · exact ⟨calls, members, [], rfl, hlast, by simp⟩
    · refine ⟨before, supplier, after ++ [members], by simp, hlast, ?_⟩
      intro later hlater
      rcases List.mem_append.1 hlater with hlater | hlater
      · exact hafter later hlater
      · rwa [List.mem_singleton.1 hlater]

/-- Every key that is handed over comes from a last call. -/
theorem exists_lastSupplied_iff {calls : List (List (String × Document))} :
    (∃ d, LastSupplied calls key d) ↔ ∃ members ∈ calls, key ∈ members.map Prod.fst := by
  induction calls using List.reverseRecOn with
  | nil => simp [not_lastSupplied_nil]
  | append_singleton calls members ih =>
      have hlast : (∃ d, IsLast Prod.fst (key, d) members) ↔ key ∈ members.map Prod.fst := by
        rw [← Order.exists_isLast_iff]
        grind
      simp only [lastSupplied_concat, exists_or, exists_and_right, hlast, ih]
      grind

theorem ascending_extra_foldl (hfresh : log.extra = [])
    (calls : List (List (String × Document))) :
    Order.Ascending Prod.fst (calls.foldl withExtra log).extra := by
  rcases List.eq_nil_or_concat calls with rfl | ⟨calls, members, rfl⟩
  · rw [List.foldl_nil, hfresh]
    exact Order.ascending_nil Prod.fst
  · rw [List.concat_eq_append, List.foldl_concat]
    exact ascending_extra_withExtra _ members

theorem envelope_foldl (log : CaseLog) (calls : List (List (String × Document))) :
    (calls.foldl withExtra log).envelope = log.envelope := by
  induction calls generalizing log with
  | nil => rfl
  | cons members calls ih => rw [List.foldl_cons, ih, envelope_withExtra]

/-- **A member is there if the last call with its key has it.** -/
theorem mem_extra_foldl (hfresh : log.extra = []) (calls : List (List (String × Document))) :
    m ∈ (calls.foldl withExtra log).extra ↔
      m.1 ∉ envelopeKeys ∧ ∃ d, LastSupplied calls m.1 d ∧ m.2 = d.canonical := by
  induction calls using List.reverseRecOn with
  | nil =>
      rw [List.foldl_nil, hfresh]
      simp [not_lastSupplied_nil]
  | append_singleton calls members ih =>
      rw [List.foldl_concat, mem_extra_withExtra (ascending_extra_foldl hfresh calls),
        isLast_keptMembers, mem_keys_keptMembers]
      simp only [ih, lastSupplied_concat]
      grind

/-- The members that calls leave: one for each key that some call has and the envelope lacks,
with the value of the last call that has it, in the order of the bytes of the keys. -/
structure LeftBy (calls : List (List (String × Document))) (extra : List (String × Document)) :
    Prop where
  keys : ∀ key, key ∈ extra.map Prod.fst ↔
    key ∉ envelopeKeys ∧ ∃ members ∈ calls, key ∈ members.map Prod.fst
  values : ∀ m ∈ extra, ∃ d, LastSupplied calls m.1 d ∧ m.2 = d.canonical
  ascending : extra.Pairwise fun m n => Text.bytes m.1 < Text.bytes n.1

theorem leftBy_extra_foldl (hfresh : log.extra = []) (calls : List (List (String × Document))) :
    LeftBy calls (calls.foldl withExtra log).extra where
  keys key := by
    rw [← exists_lastSupplied_iff, List.mem_map]
    simp only [mem_extra_foldl hfresh calls]
    constructor
    · rintro ⟨m, ⟨hkey, d, hsupplied, -⟩, rfl⟩
      exact ⟨hkey, d, hsupplied⟩
    · rintro ⟨hkey, d, hsupplied⟩
      exact ⟨(key, d.canonical), ⟨hkey, d, hsupplied, rfl⟩, rfl⟩
  values m hm := ((mem_extra_foldl hfresh calls).1 hm).2
  ascending := Text.pairwise_bytes_of_ascending (ascending_extra_foldl hfresh calls)

/-- The members that calls leave repeat no key, also not one of the envelope. -/
theorem LeftBy.nodup_keys {calls : List (List (String × Document))}
    {extra : List (String × Document)} (hextra : LeftBy calls extra) (log : CaseLog) :
    ((log.envelope ++ extra).map Prod.fst).Nodup := by
  rw [List.map_append, map_fst_envelope]
  refine List.nodup_append'.2 ⟨by decide, ?_, ?_⟩
  · rw [List.Nodup, List.pairwise_map]
    refine hextra.ascending.imp ?_
    intro m n hless hsame
    rw [hsame] at hless
    exact List.lt_irrefl _ hless
  · exact fun key hkey hmem => ((hextra.keys key).1 hmem).1 hkey

theorem label_mode (log : CaseLog) :
    log.mode.label = if log.mode = .strict then "strict" else "hardened" := by
  cases log.mode <;> rfl

/-- **Extra members leave the envelope of a record alone.**  The line of a record that was made
without extra members, after any calls, is the envelope as it was made and behind it the members
that the calls leave, without a repeated key.  Calls whose keys differ can change places, and a
call with keys of the envelope does nothing. -/
theorem line_after_calls (log : CaseLog) (hfresh : log.extra = [])
    (calls : List (List (String × Document))) :
    (∃ envelope extra,
      envelope =
        [("schema_version", .text "ft-conformance-log-v1"), ("ts_unix_ms", .natural log.timestamp),
          ("suite_id", .text log.suite),
          ("scenario_id", .text (log.suite ++ "/" ++
            (if log.mode = .strict then "strict" else "hardened") ++ ":" ++ log.caseName)),
          ("fixture_id", .text log.fixture), ("packet_id", .text log.packet),
          ("case_id", .text log.caseName),
          ("mode", .text (if log.mode = .strict then "strict" else "hardened")),
          ("artifact_refs", .list (log.artifacts.map .text)),
          ("replay_command", .text log.replayCommand), ("outcome", .text log.outcome),
          ("reason_code", .text log.reasonCode)] ∧
      envelope.map Prod.fst = envelopeKeys ∧ LeftBy calls extra ∧
      (calls.foldl withExtra log).line = (Document.object (envelope ++ extra)).compact ∧
      ((envelope ++ extra).map Prod.fst).Nodup) ∧
    (∀ first second : List (String × Document),
      (first.map Prod.fst).Disjoint (second.map Prod.fst) →
      ((calls.foldl withExtra log).withExtra first).withExtra second =
        ((calls.foldl withExtra log).withExtra second).withExtra first) ∧
    (∀ members : List (String × Document), (∀ m ∈ members, m.1 ∈ envelopeKeys) →
      (calls.foldl withExtra log).withExtra members = calls.foldl withExtra log) := by
  have hleft := leftBy_extra_foldl hfresh calls
  have hascending := ascending_extra_foldl hfresh calls
  refine ⟨⟨log.envelope, (calls.foldl withExtra log).extra, ?_, map_fst_envelope log, hleft,
    ?_, ?_⟩, ?_, ?_⟩
  · rw [← label_mode]
    rfl
  · rw [line, toDocument, envelope_foldl]
  · exact hleft.nodup_keys log
  · exact fun first second hdisjoint => withExtra_comm hascending hdisjoint
  · exact fun members henvelope => withExtra_of_envelope hascending henvelope

/-- The record of a case that passed in strict mode. -/
def strictPass : CaseLog :=
  { timestamp := 0
    suite := "schema_info"
    fixture := "schema_info_cases.json"
    packet := "FT-SI-001"
    caseName := "add_inplace"
    mode := .strict
    artifacts := ["crates/ft-conformance/fixtures/schema_info_cases.json"]
    replayCommand := "cargo test -p ft-conformance -- --nocapture"
    outcome := "pass"
    reasonCode := "schema_info_parity_ok" }

/-- Two calls: both hand over a signature, and the first also a mode and a reason of its own. -/
def shadowingCalls : List (List (String × Document)) :=
  [[("mode", .text "shadowed_mode"), ("reason_code", .text "shadowed_reason"),
      ("schema_signature", .text "aten::add(...)")],
    [("runtime_evidence", .null), ("schema_signature", .text "aten::add_(...)")]]

/-- The record keeps its mode and its reason, and has the signature of the second call. -/
theorem line_shadowingCalls : strictPass.extra = [] ∧
    (∃ envelope extra, ("mode", .text "strict") ∈ envelope ∧
      ("reason_code", .text "schema_info_parity_ok") ∈ envelope ∧
      ("schema_signature", .text "aten::add_(...)") ∈ extra ∧ "mode" ∉ extra.map Prod.fst ∧
      (shadowingCalls.foldl withExtra strictPass).line =
        (Document.object (envelope ++ extra)).compact) ∧
    ((shadowingCalls.foldl withExtra strictPass).withExtra [("a", .null)]).withExtra
        [("b", .flag true)] =
      ((shadowingCalls.foldl withExtra strictPass).withExtra [("b", .flag true)]).withExtra
        [("a", .null)] ∧
    (shadowingCalls.foldl withExtra strictPass).withExtra [("mode", .text "shadowed_mode")] =
      shadowingCalls.foldl withExtra strictPass := by
  obtain ⟨⟨envelope, extra, henvelope, -, hleft, hline, -⟩, hcomm, hidle⟩ :=
    line_after_calls strictPass rfl shadowingCalls
  refine ⟨rfl, ⟨envelope, extra, ?_, ?_, ?_, ?_, hline⟩, hcomm _ _ (by simp),
    hidle _ (by simp [envelopeKeys])⟩
  · simp [henvelope, strictPass]
  · simp [henvelope, strictPass]
  · have hkey : "schema_signature" ∈ extra.map Prod.fst :=
      (hleft.keys _).2 ⟨by decide, _, List.mem_cons_self, by decide⟩
    obtain ⟨⟨key, value⟩, hmem, rfl : key = _⟩ := List.mem_map.1 hkey
    obtain ⟨d, hsupplied, rfl : value = _⟩ := hleft.values _ hmem
    -- The second call has the key, so the first is not asked.
    have hd : d = .text "aten::add_(...)" := by
      rw [shadowingCalls, ← List.singleton_append, lastSupplied_concat] at hsupplied
      simpa [Order.isLast_cons, Order.not_isLast_nil] using hsupplied
    rwa [hd] at hmem
  · exact fun hmem => ((hleft.keys "mode").1 hmem).1 (by decide)

end CaseLog

end OpSchema
