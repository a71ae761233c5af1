import Mathlib
import Pitwall.Audit.PreSpendScan
import Pitwall.Library.Counting
set_option autoImplicit false

/-!
Which secrets the scan of a payload reaches: the strings at the positions of a payload, what is
made of each of them, and what the scan decides from all of them.
-/

namespace Pitwall.PreSpend
open JsonSyntax Routing.SemanticKey

inductive Step where
  | key (name : Codes)
  | index (n : Nat)
  deriving DecidableEq

namespace Step

def fieldName : Step → Option Codes
  | .key name => some name
  | .index _ => none

end Step

section Positions
variable {ν : Type}

def field (fields : List (Codes × JsonTree ν)) (name : Codes) : Option (JsonTree ν) :=
  @List.lookup _ _ instBEqOfDecidableEq name fields

def child : JsonTree ν → Step → Option (JsonTree ν)
  | .obj fields, .key name => field fields name
  | .arr items, .index n => items[n]?
  | _, _ => none

def valueAt (v : JsonTree ν) : List Step → Option (JsonTree ν)
  | [] => some v
  | step :: steps => (child v step).bind fun w => valueAt w steps

def fieldAt (fieldName : Option Codes) : List Step → Option Codes
  | [] => fieldName
  | step :: steps => fieldAt step.fieldName steps

mutual
def strings (fieldName : Option Codes) : JsonTree ν → List (Option Codes × Codes)
  | .str s => [(fieldName, s)]
  | .obj fields => stringsFields fields
  | .arr items => stringsItems items
  | .atom _ => []

def stringsFields : List (Codes × JsonTree ν) → List (Option Codes × Codes)
  | [] => []
  | (key, v) :: fields => strings (some key) v ++ stringsFields fields

def stringsItems : List (JsonTree ν) → List (Option Codes × Codes)
  | [] => []
  | v :: items => strings none v ++ stringsItems items
end

end Positions

section Meaning
variable (text : TextFunctions) {ν : Type}

def IsDirect (fieldName : Option Codes) (s : Codes) : Prop :=
  isSecretFieldName text fieldName = true ∧ Whitespace.strip isSpaceCode s ≠ []

instance (fieldName : Option Codes) (s : Codes) : Decidable (IsDirect text fieldName s) :=
  inferInstanceAs (Decidable (_ ∧ _))

def redactAll (patterns : List ValuePattern) (s : Codes) : Codes :=
  patterns.foldl (fun s pattern => pattern.regex.sub text.isWord pattern.replacement s) s

/-- What some patterns find in a text, each in what the ones before it have left. -/
def patternPicks : List ValuePattern → Codes → List (PreSpendDecision × Codes)
  | [], _ => []
  | pattern :: patterns, s =>
      (pattern.regex.found text.isWord s).map (pattern.action, ·) ++
        patternPicks patterns (pattern.regex.sub text.isWord pattern.replacement s)

/-- The texts that are picked out of a string, and the decision that each asks for. -/
def picks (fieldName : Option Codes) (s : Codes) : List (PreSpendDecision × Codes) :=
  if IsDirect text fieldName s then [(.block, s)] else patternPicks text (valuePatterns text) s

def redactedString (fieldName : Option Codes) (s : Codes) : Codes :=
  if IsDirect text fieldName s then redactedSecret else redactAll text (valuePatterns text) s

mutual
def redactedValue (fieldName : Option Codes) : JsonTree ν → JsonTree ν
  | .str s => .str (redactedString text fieldName s)
  | .obj fields => .obj (redactedFields fields)
  | .arr items => .arr (redactedItems items)
  | .atom a => .atom a

def redactedFields : List (Codes × JsonTree ν) → List (Codes × JsonTree ν)
  | [] => []
  | (key, v) :: fields => (key, redactedValue (some key) v) :: redactedFields fields

def redactedItems : List (JsonTree ν) → List (JsonTree ν)
  | [] => []
  | v :: items => redactedValue none v :: redactedItems items
end

def BelowSecret (steps : List Step) : Prop :=
  ∃ name, .key name ∈ steps ∧ isSecretFieldName text (some name) = true

/-- A non-blank string below a secret key. -/
structure IsSecretAt (payload : JsonTree ν) (steps : List Step) (s : Codes) : Prop where
  found : valueAt payload steps = some (.str s)
  nonblank : Whitespace.strip isSpaceCode s ≠ []
  below : BelowSecret text steps

/-- Every secret of a payload is blocked and taken out at its position, whatever the cap. -/
def ScanCovers (payload : JsonTree ν) : Prop :=
  ∀ maxFindings steps s, IsSecretAt text payload steps s →
    ∃ result, scanPreSpendPayload text maxFindings payload = .ok result ∧
      result.decision = .block ∧ valueAt result.redactedPayload steps ≠ some (.str s)

/-- Decision and redacted payload are the same under every cap. -/
def CapFree (payload : JsonTree ν) : Prop :=
  ∀ maxFindings other,
    (scanPreSpendPayload text maxFindings payload).map (fun r => (r.decision, r.redactedPayload)) =
      (scanPreSpendPayload text other payload).map fun r => (r.decision, r.redactedPayload)

/-- What is picked out can be encoded; a string below a secret key is the value of such a key, other
than the text put in its place, or it is altered by the patterns; and where there is one, some
string of the payload asks for a block. -/
structure SecretsReached (payload : JsonTree ν) : Prop where
  encodable : ∀ steps s, valueAt payload steps = some (.str s) →
    ∀ pick ∈ picks text (fieldAt none steps) s, ∀ code ∈ pick.2, isSurrogate code = false
  replaced : ∀ steps s, IsSecretAt text payload steps s →
    if isSecretFieldName text (fieldAt none steps) = true then s ≠ redactedSecret
    else redactAll text (valuePatterns text) s ≠ s
  blocked : ∀ steps s, IsSecretAt text payload steps s →
    ∃ steps' s', valueAt payload steps' = some (.str s') ∧
      ∃ pick ∈ picks text (fieldAt none steps') s', pick.1 = .block

end Meaning

section Recording
variable {text : TextFunctions} {maxFindings : Int} {α β : Type} {st : ScanState}

namespace Match

def pick (m : Match) : PreSpendDecision × Codes := (m.action, m.matched)

end Match

/-- What a part of the scan does: it returns a value and records matches with the given picks. -/
def Records (text : TextFunctions) (maxFindings : Int)
    (scan : ScanState → Except PyError (α × ScanState)) (a : α)
    (found : List (PreSpendDecision × Codes)) : Prop :=
  ∃ ms : List Match, ms.map Match.pick = found ∧
    ∀ st, scan st = (ms.foldlM (recordPreSpendFinding text maxFindings) st).map fun st => (a, st)

namespace Records
variable {scan : ScanState → Except PyError (α × ScanState)} {a : α} {b : β}
  {found others : List (PreSpendDecision × Codes)}

theorem pure (a : α) : Records text maxFindings (fun st => .ok (a, st)) a [] :=
  ⟨[], rfl, fun _ => rfl⟩

theorem bind {next : α → ScanState → Except PyError (β × ScanState)}
    (hscan : Records text maxFindings scan a found)
    (hnext : Records text maxFindings (next a) b others) :
    Records text maxFindings (fun st => (scan st).bind fun r => next r.1 r.2) b
      (found ++ others) := by
  obtain ⟨ms, rfl, hms⟩ := hscan
  obtain ⟨ns, rfl, hns⟩ := hnext
  refine ⟨ms ++ ns, List.map_append, fun st => ?_⟩
  dsimp only
  rw [hms, List.foldlM_append]
  cases hrun : ms.foldlM (recordPreSpendFinding text maxFindings) st with
  | error exc => rfl
  | ok st' => exact hns st'

theorem map (f : α → β) (h : Records text maxFindings scan a found) :
    Records text maxFindings (fun st => (scan st).map fun r => (f r.1, r.2)) (f a) found := by
  obtain ⟨ms, hfound, hms⟩ := h
  refine ⟨ms, hfound, fun st => ?_⟩
  dsimp only
  rw [hms]
  cases ms.foldlM (recordPreSpendFinding text maxFindings) st <;> rfl

theorem zip {γ : Type} {rest : ScanState → Except PyError (β × ScanState)} (f : α → β → γ)
    (hscan : Records text maxFindings scan a found)
    (hrest : Records text maxFindings rest b others) :
    Records text maxFindings (fun st => (scan st).bind fun r =>
      (rest r.2).bind fun q => .ok (f r.1 q.1, q.2)) (f a b) (found ++ others) :=
  @bind _ _ _ _ _ _ _ _ _ (fun x st => (rest st).bind fun q => .ok (f x q.1, q.2)) hscan
    (hrest.map (f a))

end Records

theorem records_redactPattern (path : Codes) (pattern : ValuePattern) (s : Codes) :
    Records text maxFindings (redactPattern text maxFindings path pattern s)
      (pattern.regex.sub text.isWord pattern.replacement s)
      ((pattern.regex.found text.isWord s).map (pattern.action, ·)) := by
  refine ⟨(pattern.regex.found text.isWord s).map fun matched =>
    ⟨pattern.kind, pattern.rule, path, pattern.action, matched, pattern.replacement⟩, ?_, ?_⟩
  · rw [List.map_map]
    rfl
  · intro st
    rw [redactPattern, List.foldlM_map]

theorem records_patterns (path : Codes) (patterns : List ValuePattern) (s : Codes) :
    Records text maxFindings
      (fun st => patterns.foldlM (fun r pattern =>
        redactPattern text maxFindings path pattern r.1 r.2) (s, st))
      (redactAll text patterns s) (patternPicks text patterns s) := by
  induction patterns generalizing s with
  | nil => exact .pure s
  | cons pattern patterns ih =>
    exact @Records.bind _ _ _ _ _ _ _ _ _
      (fun s st => patterns.foldlM (fun r pattern =>
        redactPattern text maxFindings path pattern r.1 r.2) (s, st))
      (records_redactPattern path pattern s) (ih _)

theorem records_string (path : Codes) (fieldName : Option Codes) (s : Codes) :
    Records text maxFindings (scanPreSpendString text maxFindings path fieldName s)
      (redactedString text fieldName s) (picks text fieldName s) := by
  by_cases hdirect : IsDirect text fieldName s
  · rw [redactedString, if_pos hdirect, picks, if_pos hdirect]
    refine ⟨[⟨.secret, codes "secret_field", path, .block, s, redactedSecret⟩], rfl, fun st => ?_⟩
    have hscan : scanPreSpendString text maxFindings path fieldName s st = _ := if_pos hdirect
    rw [hscan, List.foldlM_cons]
    cases recordPreSpendFinding text maxFindings st
      ⟨.secret, codes "secret_field", path, .block, s, redactedSecret⟩ <;> rfl
  · rw [redactedString, if_neg hdirect, picks, if_neg hdirect]
    obtain ⟨ms, hfound, hms⟩ := @records_patterns text maxFindings path (valuePatterns text) s
    refine ⟨ms, hfound, fun st => ?_⟩
    exact (if_neg hdirect).trans (hms st)

end Recording

section Value
variable {text : TextFunctions} {maxFindings : Int} {ν : Type}

def picksOf (text : TextFunctions) (found : List (Option Codes × Codes)) :
    List (PreSpendDecision × Codes) := found.flatMap fun p => picks text p.1 p.2

mutual
theorem records_value : ∀ (path : Codes) (fieldName : Option Codes) (v : JsonTree ν),
    Records text maxFindings (scanPreSpendValue text maxFindings path fieldName v)
      (redactedValue text fieldName v) (picksOf text (strings fieldName v))
  | path, fieldName, .str s => by
      rw [strings, picksOf, List.flatMap_singleton]
      exact (records_string path fieldName s).map JsonTree.str
  | path, fieldName, .obj fields => (records_fields path fields).map JsonTree.obj
  | path, fieldName, .arr items => (records_items path 0 items).map JsonTree.arr
  | path, fieldName, .atom a => .pure (JsonTree.atom a)

theorem records_fields : ∀ (path : Codes) (fields : List (Codes × JsonTree ν)),
    Records text maxFindings (scanPreSpendFields text maxFindings path fields)
      (redactedFields text fields) (picksOf text (stringsFields fields))
  | path, [] => .pure []
  | path, (key, v) :: fields => by
      rw [stringsFields, picksOf, List.flatMap_append]
      exact (records_value (childPath path key) (some key) v).zip
        (fun redacted others => (key, redacted) :: others) (records_fields path fields)

theorem records_items : ∀ (path : Codes) (index : Nat) (items : List (JsonTree ν)),
    Records text maxFindings (scanPreSpendItems text maxFindings path index items)
      (redactedItems text items) (picksOf text (stringsItems items))
  | path, index, [] => .pure []
  | path, index, v :: items => by
      rw [stringsItems, picksOf, List.flatMap_append]
      exact (records_value (path ++ codes "[" ++ codes (toString index) ++ codes "]") none v).zip
        List.cons (records_items path (index + 1) items)
end

end Value

section Outcome
variable {text : TextFunctions} {maxFindings : Int} {st st' : ScanState} {ms : List Match}

def Encodable (s : Codes) : Prop := ∀ code ∈ s, isSurrogate code = false

theorem encodeUtf8_of_encodable {s : Codes} (h : Encodable s) : encodeUtf8 s = .ok s := by
  refine if_neg ?_
  rw [List.any_eq_true]
  rintro ⟨code, hcode, hsurrogate⟩
  rw [h code hcode] at hsurrogate
  cases hsurrogate

theorem encodeUtf8_of_not {s : Codes} (h : ¬ Encodable s) : encodeUtf8 s =
    .error ⟨"UnicodeEncodeError", "'utf-8' codec can't encode character: surrogates not allowed"⟩ := by
  refine if_pos (by_contra fun hnone => h fun code hcode => ?_)
  by_contra hsurrogate
  exact hnone (List.any_eq_true.mpr ⟨code, hcode, by simpa using hsurrogate⟩)

theorem record_ok {m : Match} (h : maxFindings ≤ st.findings.length ∨ Encodable m.matched) :
    ∃ st', recordPreSpendFinding text maxFindings st m = .ok st' := by
  rw [recordPreSpendFinding]
  split
  · exact ⟨_, rfl⟩
  · rename_i hroom
    rw [encodeUtf8_of_encodable (h.resolve_left hroom)]
    exact ⟨_, rfl⟩

theorem record_spec {m : Match} (h : recordPreSpendFinding text maxFindings st m = .ok st') :
    st'.decisions = insert m.action st.decisions ∧
      st.findings.length ≤ st'.findings.length ∧
      st'.findings.length ≤ st.findings.length + 1 := by
  rw [recordPreSpendFinding] at h
  split at h
  · obtain rfl := Except.ok.inj h
    exact ⟨rfl, le_rfl, Nat.le_succ _⟩
  · obtain ⟨encoded, -, rfl⟩ := Except.map_eq_ok_iff.mp h
    refine ⟨rfl, ?_, ?_⟩ <;> simp

theorem recordAll_ok (h : maxFindings ≤ st.findings.length ∨ ∀ m ∈ ms, Encodable m.matched) :
    ∃ st', ms.foldlM (recordPreSpendFinding text maxFindings) st = .ok st' := by
  induction ms generalizing st with
  | nil => exact ⟨st, rfl⟩
  | cons m ms ih =>
    obtain ⟨st₁, hst₁⟩ := @record_ok text maxFindings st m (h.imp_right fun hall =>
      hall m (List.mem_cons_self ..))
    rw [List.foldlM_cons, hst₁]
    refine ih (h.imp (fun hfull => ?_) fun hall n hn => hall n (List.mem_cons_of_mem m hn))
    have hgrows := (record_spec hst₁).2.1
    omega

theorem mem_decisions (h : ms.foldlM (recordPreSpendFinding text maxFindings) st = .ok st')
    {d : PreSpendDecision} :
    d ∈ st'.decisions ↔ d ∈ st.decisions ∨ ∃ m ∈ ms, m.action = d := by
  induction ms generalizing st with
  | nil =>
    obtain rfl := Except.ok.inj h
    simp
  | cons m ms ih =>
    rw [List.foldlM_cons] at h
    obtain ⟨st₁, hst₁, hrest⟩ := Except.bind_eq_ok_iff.mp h
    rw [ih hrest, (record_spec hst₁).1, Finset.mem_insert, List.exists_mem_cons_iff,
      or_comm (a := d = m.action), or_assoc, eq_comm]

theorem recordAll_error (hroom : st.findings.length + ms.length ≤ maxFindings) {m : Match}
    (hm : m ∈ ms) (h : ¬ Encodable m.matched) :
    ∃ exc, ms.foldlM (recordPreSpendFinding text maxFindings) st = .error exc := by
  induction ms generalizing st with
  | nil => cases hm
  | cons n ms ih =>
    rw [List.length_cons] at hroom
    rw [List.foldlM_cons]
    cases hn : recordPreSpendFinding text maxFindings st n with
    | error exc => exact ⟨exc, rfl⟩
    | ok st₁ =>
      rcases List.mem_cons.mp hm with rfl | hm
      · refine absurd hn ?_
        rw [recordPreSpendFinding, if_neg (by omega), encodeUtf8_of_not h]
        exact fun heq => nomatch heq
      · have hgrows := (record_spec hn).2.2
        exact ih (by omega) hm

end Outcome

section Lookup
variable {text : TextFunctions} {ν : Type} {v w : JsonTree ν}

theorem redactedItems_eq_map (items : List (JsonTree ν)) :
    redactedItems text items = items.map (redactedValue text none) := by
  induction items with
  | nil => rfl
  | cons v items ih => rw [redactedItems, ih, List.map_cons]

theorem field_cons (key name : Codes) (v : JsonTree ν) (fields : List (Codes × JsonTree ν)) :
    field ((key, v) :: fields) name = if name = key then some v else field fields name := by
  have hstep : field ((key, v) :: fields) name =
      cond (decide (name = key)) (some v) (field fields name) := rfl
  rw [hstep]
  by_cases h : name = key
  · rw [if_pos h, decide_eq_true h, cond_true]
  · rw [if_neg h, decide_eq_false h, cond_false]

theorem field_redactedFields (fields : List (Codes × JsonTree ν)) (name : Codes) :
    field (redactedFields text fields) name =
      (field fields name).map (redactedValue text (some name)) := by
  induction fields with
  | nil => rfl
  | cons p fields ih =>
    obtain ⟨key, v⟩ := p
    rw [redactedFields, field_cons, field_cons, ih]
    by_cases h : name = key
    · rw [if_pos h, if_pos h, h, Option.map_some]
    · rw [if_neg h, if_neg h]

theorem child_redactedValue (fieldName : Option Codes) (v : JsonTree ν) (step : Step) :
    child (redactedValue text fieldName v) step =
      (child v step).map (redactedValue text step.fieldName) := by
  cases v with
  | atom a => rfl
  | str s => rfl
  | obj fields =>
    cases step with
    | key name => exact field_redactedFields fields name
    | index n => rfl
  | arr items =>
    cases step with
    | key name => rfl
    | index n =>
      rw [redactedValue, child, redactedItems_eq_map, List.getElem?_map]
      rfl

theorem valueAt_redactedValue (fieldName : Option Codes) (v : JsonTree ν) (steps : List Step) :
    valueAt (redactedValue text fieldName v) steps =
      (valueAt v steps).map (redactedValue text (fieldAt fieldName steps)) := by
  induction steps generalizing v fieldName with
  | nil => rfl
  | cons step steps ih =>
    rw [valueAt, child_redactedValue, valueAt, fieldAt]
    cases child v step with
    | none => rfl
    | some w => exact ih step.fieldName w

theorem uniqueNamesItems_iff {items : List (JsonTree ν)} :
    UniqueNamesItems items ↔ ∀ v ∈ items, UniqueNames v := by
  induction items with
  | nil => exact iff_of_true trivial (List.forall_mem_nil _)
  | cons v items ih => rw [UniqueNamesItems, ih, List.forall_mem_cons]

theorem uniqueNamesFields_iff {fields : List (Codes × JsonTree ν)} :
    UniqueNamesFields fields ↔ ∀ p ∈ fields, UniqueNames p.2 := by
  induction fields with
  | nil => exact iff_of_true trivial (List.forall_mem_nil _)
  | cons p fields ih =>
    obtain ⟨key, v⟩ := p
    rw [UniqueNamesFields, ih, List.forall_mem_cons]

theorem uniqueNames_child (hv : UniqueNames v) {step : Step} (h : child v step = some w) :
    UniqueNames w := by
  cases v with
  | atom a => cases h
  | str s => cases h
  | obj fields =>
    cases step with
    | key name => exact uniqueNamesFields_iff.mp hv.2 _ (mem_of_lookup h)
    | index n => cases h
  | arr items =>
    cases step with
    | key name => cases h
    | index n => exact uniqueNamesItems_iff.mp hv w (List.mem_of_getElem? h)

mutual
theorem uniqueNames_sortKeys : ∀ v : JsonTree ν, UniqueNames v → UniqueNames (sortKeys v)
  | .atom _, h => h
  | .str _, h => h
  | .arr items, h => uniqueNamesItems_sortKeys items h
  | .obj fields, ⟨hnames, hfields⟩ => by
      have hperm := sortedBy_perm nameLt (sortKeysFields fields)
      refine ⟨?_, uniqueNamesFields_iff.mpr fun p hp => ?_⟩
      · rw [(hperm.map Prod.fst).nodup_iff, names_sortKeysFields]
        exact hnames
      · exact uniqueNamesFields_iff.mp (uniqueNamesFields_sortKeys fields hfields) p
          (hperm.mem_iff.mp hp)

theorem uniqueNamesItems_sortKeys : ∀ items : List (JsonTree ν),
    UniqueNamesItems items → UniqueNamesItems (sortKeysItems items)
  | [], h => h
  | v :: items, h => ⟨uniqueNames_sortKeys v h.1, uniqueNamesItems_sortKeys items h.2⟩

theorem uniqueNamesFields_sortKeys : ∀ fields : List (Codes × JsonTree ν),
    UniqueNamesFields fields → UniqueNamesFields (sortKeysFields fields)
  | [], h => h
  | (_, v) :: fields, h => ⟨uniqueNames_sortKeys v h.1, uniqueNamesFields_sortKeys fields h.2⟩
end

theorem sortKeysItems_eq_map (items : List (JsonTree ν)) :
    sortKeysItems items = items.map sortKeys := by
  induction items with
  | nil => rfl
  | cons v items ih => rw [sortKeysItems, ih, List.map_cons]

theorem child_sortKeys (hv : UniqueNames v) (step : Step) :
    child (sortKeys v) step = (child v step).map sortKeys := by
  cases v with
  | atom a => rfl
  | str s => rfl
  | obj fields =>
    cases step with
    | key name =>
      have hperm := sortedBy_perm nameLt (sortKeysFields fields)
      have hsorted : ((sortKeysFields fields).map Prod.fst).Nodup := by
        rw [names_sortKeysFields]
        exact hv.1
      have hlookup : field (sortedBy nameLt (sortKeysFields fields)) name =
          field (sortKeysFields fields) name := by
        refine Option.ext fun w => ⟨fun h => ?_, fun h => ?_⟩
        · exact lookup_of_mem hsorted (hperm.mem_iff.mp (mem_of_lookup h))
        · exact lookup_of_mem ((hperm.map Prod.fst).nodup_iff.mpr hsorted)
            (hperm.mem_iff.mpr (mem_of_lookup h))
      calc field (sortedBy nameLt (sortKeysFields fields)) name
          = field (fields.map (Prod.map id sortKeys)) name := by
            rw [hlookup, sortKeysFields_eq_map]
            rfl
        _ = (field fields name).map sortKeys := lookup_map sortKeys
    | index n => rfl
  | arr items =>
    cases step with
    | key name => rfl
    | index n =>
      rw [sortKeys, child, sortKeysItems_eq_map, List.getElem?_map]
      rfl

theorem valueAt_sortKeys (hv : UniqueNames v) (steps : List Step) :
    valueAt (sortKeys v) steps = (valueAt v steps).map sortKeys := by
  induction steps generalizing v with
  | nil => rfl
  | cons step steps ih =>
    rw [valueAt, child_sortKeys hv, valueAt]
    cases hchild : child v step with
    | none => rfl
    | some w => exact ih (uniqueNames_child hv hchild)

theorem valueAt_sortKeys_str (hv : UniqueNames v) {steps : List Step} {s : Codes} :
    valueAt (sortKeys v) steps = some (.str s) ↔ valueAt v steps = some (.str s) := by
  rw [valueAt_sortKeys hv, Option.map_eq_some_iff]
  refine ⟨?_, fun h => ⟨_, h, rfl⟩⟩
  rintro ⟨w, hw, heq⟩
  cases w with
  | str t => exact hw.trans (congrArg some heq)
  | atom a => cases heq
  | arr items => cases heq
  | obj fields => cases heq

end Lookup

section Strings
variable {ν : Type} {fieldName : Option Codes} {s : Codes}

theorem mem_stringsItems {items : List (JsonTree ν)} {p : Option Codes × Codes} :
    p ∈ stringsItems items ↔ ∃ v ∈ items, p ∈ strings none v := by
  induction items with
  | nil => simp [stringsItems]
  | cons v items ih => rw [stringsItems, List.mem_append, ih, List.exists_mem_cons_iff]

theorem mem_stringsFields {fields : List (Codes × JsonTree ν)} {p : Option Codes × Codes} :
    p ∈ stringsFields fields ↔ ∃ q ∈ fields, p ∈ strings (some q.1) q.2 := by
  induction fields with
  | nil => simp [stringsFields]
  | cons q fields ih =>
    obtain ⟨key, v⟩ := q
    rw [stringsFields, List.mem_append, ih, List.exists_mem_cons_iff]

theorem mem_strings_of_valueAt {v : JsonTree ν} {steps : List Step}
    (h : valueAt v steps = some (.str s)) : (fieldAt fieldName steps, s) ∈ strings fieldName v := by
  induction steps generalizing v fieldName with
  | nil =>
    obtain rfl := Option.some.inj h
    exact List.mem_singleton_self _
  | cons step steps ih =>
    rw [valueAt] at h
    obtain ⟨w, hw, hrest⟩ := Option.bind_eq_some_iff.mp h
    have hmem := @ih step.fieldName w hrest
    cases v with
    | atom a => cases hw
    | str s => cases hw
    | obj fields =>
      cases step with
      | key name => exact mem_stringsFields.mpr ⟨(name, w), mem_of_lookup hw, hmem⟩
      | index n => cases hw
    | arr items =>
      cases step with
      | key name => cases hw
      | index n => exact mem_stringsItems.mpr ⟨w, List.mem_of_getElem? hw, hmem⟩

mutual
theorem exists_valueAt : ∀ (fieldName : Option Codes) (v : JsonTree ν), UniqueNames v →
    ∀ p ∈ strings fieldName v,
      ∃ steps, valueAt v steps = some (.str p.2) ∧ fieldAt fieldName steps = p.1
  | fieldName, .str s, _, p, hp => by
      obtain rfl := List.mem_singleton.mp hp
      exact ⟨[], rfl, rfl⟩
  | fieldName, .obj fields, h, p, hp => by
      obtain ⟨q, hq, hmem⟩ := mem_stringsFields.mp hp
      obtain ⟨steps, hvalue, hfield⟩ := exists_valueAt_field fields h.2 q hq p hmem
      refine ⟨.key q.1 :: steps, ?_, hfield⟩
      rw [valueAt, child, field, lookup_of_mem h.1 hq]
      exact hvalue
  | fieldName, .arr items, h, p, hp => by
      obtain ⟨v, hv, hmem⟩ := mem_stringsItems.mp hp
      obtain ⟨steps, hvalue, hfield⟩ := exists_valueAt_item items h v hv p hmem
      obtain ⟨n, hn⟩ := List.mem_iff_getElem?.mp hv
      refine ⟨.index n :: steps, ?_, hfield⟩
      rw [valueAt, child, hn]
      exact hvalue
  | fieldName, .atom a, _, p, hp => nomatch hp

theorem exists_valueAt_field : ∀ fields : List (Codes × JsonTree ν), UniqueNamesFields fields →
    ∀ q ∈ fields, ∀ p ∈ strings (some q.1) q.2,
      ∃ steps, valueAt q.2 steps = some (.str p.2) ∧ fieldAt (some q.1) steps = p.1
  | (key, v) :: fields, h, q, hq, p, hp => by
      rcases List.mem_cons.mp hq with rfl | hq
      · exact exists_valueAt (some key) v h.1 p hp
      · exact exists_valueAt_field fields h.2 q hq p hp

theorem exists_valueAt_item : ∀ items : List (JsonTree ν), UniqueNamesItems items →
    ∀ v ∈ items, ∀ p ∈ strings none v,
      ∃ steps, valueAt v steps = some (.str p.2) ∧ fieldAt none steps = p.1
  | v :: items, h, w, hw, p, hp => by
      rcases List.mem_cons.mp hw with heq | hw
      · rw [heq] at hp ⊢
        exact exists_valueAt none v h.1 p hp
      · exact exists_valueAt_item items h.2 w hw p hp
end

end Strings

section Payload
variable {text : TextFunctions} {maxFindings : Int} {ν : Type} {payload : JsonTree ν}
  {result : PreSpendPayloadScanResult ν} {steps : List Step} {s : Codes}

def found (text : TextFunctions) (payload : JsonTree ν) : List (PreSpendDecision × Codes) :=
  picksOf text (strings none (sortKeys payload))

def decisionOf (found : List (PreSpendDecision × Codes)) : PreSpendDecision :=
  if ∃ pick ∈ found, pick.1 = .block then .block
  else if ∃ pick ∈ found, pick.1 = .redact then .redact
  else .allow

theorem mem_found (hnames : UniqueNames payload) {pick : PreSpendDecision × Codes} :
    pick ∈ found text payload ↔ ∃ steps s, valueAt payload steps = some (.str s) ∧
      pick ∈ picks text (fieldAt none steps) s := by
  rw [found, picksOf, List.mem_flatMap]
  constructor
  · rintro ⟨p, hp, hpick⟩
    obtain ⟨steps, hvalue, hfield⟩ :=
      exists_valueAt none (sortKeys payload) (uniqueNames_sortKeys payload hnames) p hp
    refine ⟨steps, p.2, (valueAt_sortKeys_str hnames).mp hvalue, ?_⟩
    rw [hfield]
    exact hpick
  · rintro ⟨steps, s, hvalue, hpick⟩
    exact ⟨_, mem_strings_of_valueAt ((valueAt_sortKeys_str hnames).mpr hvalue), hpick⟩

theorem scan_ok (h : scanPreSpendPayload text maxFindings payload = .ok result) :
    result.decision = decisionOf (found text payload) ∧
      result.redactedPayload = redactedValue text none (sortKeys payload) := by
  obtain ⟨ms, hfound, hms⟩ :=
    @records_value text maxFindings ν (codes "$") none (sortKeys payload)
  rw [scanPreSpendPayload, hms] at h
  obtain ⟨r, hr, rfl⟩ := Except.map_eq_ok_iff.mp h
  obtain ⟨st, hst, rfl⟩ := Except.map_eq_ok_iff.mp hr
  have hdecided : ∀ d, d ∈ st.decisions ↔ ∃ pick ∈ found text payload, pick.1 = d := by
    intro d
    rw [mem_decisions hst, found, ← hfound]
    simp [Match.pick]
  refine ⟨?_, rfl⟩
  simp only [hdecided]
  rfl

theorem scan_returns
    (h : maxFindings ≤ 0 ∨ ∀ pick ∈ found text payload, Encodable pick.2) :
    ∃ result, scanPreSpendPayload text maxFindings payload = .ok result := by
  obtain ⟨ms, hfound, hms⟩ :=
    @records_value text maxFindings ν (codes "$") none (sortKeys payload)
  obtain ⟨st, hst⟩ := @recordAll_ok text maxFindings ⟨[], ∅⟩ ms (h.imp_right fun hall m hm => by
    refine hall m.pick ?_
    rw [found, ← hfound]
    exact List.mem_map_of_mem hm)
  rw [scanPreSpendPayload, hms, hst]
  exact ⟨_, rfl⟩

theorem scan_raises (hroom : (found text payload).length ≤ maxFindings)
    {pick : PreSpendDecision × Codes} (hpick : pick ∈ found text payload)
    (h : ¬ Encodable pick.2) :
    ∃ exc, scanPreSpendPayload text maxFindings payload = .error exc := by
  obtain ⟨ms, hfound, hms⟩ :=
    @records_value text maxFindings ν (codes "$") none (sortKeys payload)
  rw [found, ← hfound] at hpick hroom
  obtain ⟨m, hm, rfl⟩ := List.mem_map.mp hpick
  obtain ⟨exc, hexc⟩ := @recordAll_error text maxFindings ⟨[], ∅⟩ ms
    (by simpa using hroom) m hm h
  rw [scanPreSpendPayload, hms, hexc]
  exact ⟨exc, rfl⟩

theorem valueAt_redactedPayload (hnames : UniqueNames payload)
    (h : scanPreSpendPayload text maxFindings payload = .ok result)
    (hvalue : valueAt payload steps = some (.str s)) :
    valueAt result.redactedPayload steps =
      some (.str (redactedString text (fieldAt none steps) s)) := by
  rw [(scan_ok h).2, valueAt_redactedValue, (valueAt_sortKeys_str hnames).mpr hvalue]
  rfl

theorem decisionOf_eq_block {found : List (PreSpendDecision × Codes)} :
    decisionOf found = .block ↔ ∃ pick ∈ found, pick.1 = .block := by
  refine ⟨fun h => ?_, fun h => if_pos h⟩
  by_contra hnone
  rw [decisionOf, if_neg hnone] at h
  split at h <;> cases h

theorem redactedString_ne_iff (hnonblank : Whitespace.strip isSpaceCode s ≠ [])
    (fieldName : Option Codes) :
    redactedString text fieldName s ≠ s ↔
      if isSecretFieldName text fieldName = true then s ≠ redactedSecret
      else redactAll text (valuePatterns text) s ≠ s := by
  by_cases hsecret : isSecretFieldName text fieldName = true
  · rw [redactedString, if_pos ⟨hsecret, hnonblank⟩, if_pos hsecret]
    exact ne_comm
  · rw [redactedString, if_neg fun hdirect => hsecret hdirect.1, if_neg hsecret]

theorem redactAll_of_found_nil {patterns : List ValuePattern}
    (h : ∀ pattern ∈ patterns, pattern.regex.found text.isWord s = []) :
    redactAll text patterns s = s := by
  induction patterns with
  | nil => rfl
  | cons pattern patterns ih =>
    obtain ⟨hpattern, hrest⟩ := List.forall_mem_cons.mp h
    rw [redactAll, List.foldl_cons, Regex.sub_of_found_nil hpattern]
    exact ih hrest

/-- In a list, or under a key of its own below the secret one, a string that no pattern knows is
left in the payload. -/
theorem secret_stays (hnames : UniqueNames payload) (hsecret : IsSecretAt text payload steps s)
    (hfield : isSecretFieldName text (fieldAt none steps) = false)
    (hfound : ∀ pattern ∈ valuePatterns text, pattern.regex.found text.isWord s = [])
    (h : scanPreSpendPayload text maxFindings payload = .ok result) :
    valueAt result.redactedPayload steps = some (.str s) := by
  have hplain : ¬ IsDirect text (fieldAt none steps) s := fun hdirect => by
    rw [hdirect.1] at hfield
    cases hfield
  rw [valueAt_redactedPayload hnames h hsecret.found, redactedString, if_neg hplain,
    redactAll_of_found_nil hfound]

theorem cap_free_iff : CapFree text payload ↔ ∀ pick ∈ found text payload, Encodable pick.2 := by
  constructor
  · intro hfree pick hpick
    by_contra hbad
    obtain ⟨result, hresult⟩ := @scan_returns text 0 ν payload (.inl le_rfl)
    obtain ⟨exc, hexc⟩ :=
      @scan_raises text (found text payload).length ν payload le_rfl pick hpick hbad
    have hsame := hfree 0 (found text payload).length
    rw [hresult, hexc] at hsame
    cases hsame
  · intro hall maxFindings other
    obtain ⟨result, hresult⟩ := @scan_returns text maxFindings ν payload (.inr hall)
    obtain ⟨result', hresult'⟩ := @scan_returns text other ν payload (.inr hall)
    have h := scan_ok hresult
    have h' := scan_ok hresult'
    rw [hresult, hresult']
    exact congrArg Except.ok (Prod.ext (h.1.trans h'.1.symm) (h.2.trans h'.2.symm))

/-- A payload is scanned as it should be exactly where what is picked out of it can be encoded and
its secrets are reached. -/
theorem pre_spend_scan_covers_iff (text : TextFunctions) (payload : JsonTree ν)
    (hnames : UniqueNames payload) :
    ScanCovers text payload ∧ CapFree text payload ↔ SecretsReached text payload := by
  rw [cap_free_iff]
  constructor
  · rintro ⟨hcovers, hencodable⟩
    refine ⟨fun steps s hvalue pick hpick => ?_, fun steps s hsecret => ?_,
      fun steps s hsecret => ?_⟩
    · exact hencodable pick ((mem_found hnames).mpr ⟨steps, s, hvalue, hpick⟩)
    · obtain ⟨result, hresult, -, hgone⟩ := hcovers 0 steps s hsecret
      rw [← redactedString_ne_iff hsecret.nonblank]
      rw [valueAt_redactedPayload hnames hresult hsecret.found] at hgone
      exact fun heq => hgone (by rw [heq])
    · obtain ⟨result, hresult, hblock, -⟩ := hcovers 0 steps s hsecret
      rw [(scan_ok hresult).1, decisionOf_eq_block] at hblock
      obtain ⟨pick, hpick, haction⟩ := hblock
      obtain ⟨steps', s', hvalue, hmem⟩ := (mem_found hnames).mp hpick
      exact ⟨steps', s', hvalue, pick, hmem, haction⟩
  · rintro ⟨hencodable, hreplaced, hblocked⟩
    have hall : ∀ pick ∈ found text payload, Encodable pick.2 := by
      intro pick hpick
      obtain ⟨steps, s, hvalue, hmem⟩ := (mem_found hnames).mp hpick
      exact hencodable steps s hvalue pick hmem
    refine ⟨fun maxFindings steps s hsecret => ?_, hall⟩
    obtain ⟨result, hresult⟩ := @scan_returns text maxFindings ν payload (.inr hall)
    refine ⟨result, hresult, ?_, ?_⟩
    · obtain ⟨steps', s', hvalue, pick, hmem, haction⟩ := hblocked steps s hsecret
      rw [(scan_ok hresult).1, decisionOf_eq_block]
      exact ⟨pick, (mem_found hnames).mpr ⟨steps', s', hvalue, hmem⟩, haction⟩
    · rw [valueAt_redactedPayload hnames hresult hsecret.found]
      intro heq
      refine (redactedString_ne_iff hsecret.nonblank _).mpr (hreplaced steps s hsecret) ?_
      exact JsonTree.str.inj (Option.some.inj heq)

def asciiLowerCode (c : Nat) : Nat := if c ∈ range 'A' 'Z' then c + 32 else c

def exampleText : TextFunctions where
  isWord c := c ∈ letters ++ digits ++ codes "_"
  sameCase c d := asciiLowerCode c = asciiLowerCode d
  lower := List.map asciiLowerCode
  hexdigest := id

def listedPayload : JsonTree Unit := .obj [(codes "password", .arr [.str (codes "hunter2")])]

def namedPayload : JsonTree Unit :=
  .obj [(codes "password", .str (codes "hunter2")), (codes "note", .str (codes "hello"))]

theorem namedPayload_values {steps : List Step} {s : Codes}
    (h : valueAt namedPayload steps = some (.str s)) :
    steps = [.key (codes "password")] ∧ s = codes "hunter2" ∨
      steps = [.key (codes "note")] ∧ s = codes "hello" := by
  have hleaf : ∀ (t : Codes) (rest : List Step),
      valueAt (.str t : JsonTree Unit) rest = some (.str s) → rest = [] ∧ s = t := by
    intro t rest hrest
    cases rest with
    | nil => exact ⟨rfl, (JsonTree.str.inj (Option.some.inj hrest)).symm⟩
    | cons step rest => cases hrest
  cases steps with
  | nil => cases h
  | cons step rest =>
    cases step with
    | index n => cases h
    | key name =>
      by_cases hpassword : name = codes "password"
      · subst hpassword
        obtain ⟨rfl, rfl⟩ := hleaf (codes "hunter2") rest h
        exact .inl ⟨rfl, rfl⟩
      · by_cases hnote : name = codes "note"
        · subst hnote
          obtain ⟨rfl, rfl⟩ := hleaf (codes "hello") rest h
          exact .inr ⟨rfl, rfl⟩
        · have hnone : child namedPayload (.key name) = none := by
            refine (field_cons _ _ _ _).trans ((if_neg hpassword).trans ?_)
            exact (field_cons _ _ _ _).trans (if_neg hnote)
          simp [valueAt, hnone] at h

theorem namedPayload_reached : SecretsReached exampleText namedPayload := by
  refine ⟨fun steps s h => ?_, fun steps s h => ?_, fun steps s h => ?_⟩
  · obtain ⟨rfl, rfl⟩ | ⟨rfl, rfl⟩ := namedPayload_values h
    · decide +kernel
    · decide +kernel
  · obtain ⟨rfl, rfl⟩ | ⟨rfl, rfl⟩ := namedPayload_values h.found
    · decide +kernel
    · obtain ⟨name, hname, hsecret⟩ := h.below
      obtain rfl := Step.key.inj (List.mem_singleton.mp hname)
      exact absurd hsecret (by decide +kernel)
  · exact ⟨[.key (codes "password")], codes "hunter2", rfl, (.block, codes "hunter2"),
      by decide +kernel, rfl⟩

theorem pre_spend_scan_covers_iff_of_named :
    ScanCovers exampleText namedPayload ∧ CapFree exampleText namedPayload ∧
      ¬(ScanCovers exampleText listedPayload ∧ CapFree exampleText listedPayload) := by
  have hnamed := pre_spend_scan_covers_iff exampleText namedPayload
    ⟨by decide, trivial, trivial, trivial⟩
  have hlisted := pre_spend_scan_covers_iff exampleText listedPayload
    ⟨List.nodup_singleton _, ⟨trivial, trivial⟩, trivial⟩
  obtain ⟨hcovers, hfree⟩ := hnamed.mpr namedPayload_reached
  refine ⟨hcovers, hfree, hlisted.not.mpr fun h => ?_⟩
  have hreplaced := h.replaced [.key (codes "password"), .index 0] (codes "hunter2")
    ⟨rfl, by decide +kernel, codes "password", List.mem_cons_self .., by decide +kernel⟩
  exact absurd hreplaced (by decide +kernel)

/-- The scan lets a password in a list pass. -/
theorem listed_password_passes :
    IsSecretAt exampleText listedPayload [.key (codes "password"), .index 0] (codes "hunter2") ∧
      (scanPreSpendPayload exampleText preSpendFindingLimit listedPayload).toOption.map
        (fun result => result.decision) = some .allow ∧
      ¬ ScanCovers exampleText listedPayload := by
  have hsecret : IsSecretAt exampleText listedPayload
      [.key (codes "password"), .index 0] (codes "hunter2") :=
    ⟨rfl, by decide +kernel, codes "password", List.mem_cons_self .., by decide +kernel⟩
  have hallow : (scanPreSpendPayload exampleText preSpendFindingLimit listedPayload).toOption.map
      (fun result => result.decision) = some .allow := by decide +kernel
  refine ⟨hsecret, hallow, fun hcovers => ?_⟩
  obtain ⟨result, hresult, hblock, -⟩ := hcovers _ _ _ hsecret
  rw [hresult] at hallow
  cases hblock.symm.trans (Option.some.inj hallow)

end Payload

end Pitwall.PreSpend
