import Mathlib
import Pitwall.Library.Traversal
import Pitwall.Policy.Engine
set_option autoImplicit false

/-!
What policy violations show of the strings below sensitive keys: two configurations that differ in
nothing else, and on which every rule and condition evaluates the same way.
-/

namespace Pitwall.Policies
open Routing.SemanticKey

/-- Two runs that both return a list, of one length, and the same one just in a certain case. -/
def SameWhen {α : Type} (x y : Except PyError (List α)) (case : Prop) : Prop :=
  ∃ r s, x = .ok r ∧ y = .ok s ∧ r.length = s.length ∧ (r = s ↔ case)

section Relations
variable (text : TextFunctions)

mutual
/-- Values that differ only in strings below sensitive keys. -/
def Alike (below : Bool) : Value → Value → Prop
  | .scalar a, .scalar b => a = b
  | .str s, .str t => s = t ∨ below = true
  | .enum a, .enum b => a = b
  | .seq items, .seq others => AlikeItems below items others
  | .map fields, .map others => AlikeFields below fields others
  | .model fields, .model others => AlikeFields below fields others
  | .obj fields, .obj others => AlikeFields below fields others
  | .method v, .method w => Alike below v w
  | _, _ => False

def AlikeItems (below : Bool) : List Value → List Value → Prop
  | [], [] => True
  | v :: items, w :: others => Alike below v w ∧ AlikeItems below items others
  | _, _ => False

def AlikeFields (below : Bool) : List (Codes × Value) → List (Codes × Value) → Prop
  | [], [] => True
  | (key, v) :: fields, (other, w) :: others =>
      key = other ∧ Alike (below || isSensitiveKey text key) v w ∧
        AlikeFields below fields others
  | _, _ => False
end

mutual
/-- A violation shows no difference between two values: where a string differs it is the value of a
sensitive field or somewhere below a sensitive key of the values, or its preview is the same. -/
def SameShown (fieldName : Option Codes) : Value → Value → Prop
  | .str s, .str t => fieldName.any (isSensitiveKey text) = true ∨ preview s = preview t
  | .seq items, .seq others => SameShownItems items others
  | .map fields, .map others => SameShownFields fields others
  | .model fields, .model others => SameShownFields fields others
  | .obj fields, w => .obj fields = w
  | .method v, w => .method v = w
  | _, _ => True

def SameShownItems : List Value → List Value → Prop
  | v :: items, w :: others => SameShown none v w ∧ SameShownItems items others
  | _, _ => True

def SameShownFields : List (Codes × Value) → List (Codes × Value) → Prop
  | (key, v) :: fields, (_, w) :: others =>
      (isSensitiveKey text key = true ∨ SameShown (some key) v w) ∧
        SameShownFields fields others
  | _, _ => True
end

structure SamePolicy (policy : Policy text.blank) (t t' : TargetRecord) : Prop where
  conditions : ∀ condition ∈ policy.when, ∃ b, conditionPasses text condition t.data = .ok b ∧
    conditionPasses text condition t'.data = .ok b
  rules : ∀ rule ∈ policy.rules, ∃ b, conditionPasses text rule.toPolicyCondition t.data = .ok b ∧
    conditionPasses text rule.toPolicyCondition t'.data = .ok b

/-- Every condition and every rule evaluates the same way on two configurations. -/
def EvaluatesSame (policies : List (Policy text.blank)) (config config' : Value) : Prop :=
  ∀ policy ∈ policies, List.Forall₂ (SamePolicy text policy)
    (targetsForPolicy text config policy.target) (targetsForPolicy text config' policy.target)

/-- What the violation of a rule shows is the same of two targets: their ids, and the values that
the rule reads. -/
structure RuleHides (rule : PolicyRule) (t t' : TargetRecord) : Prop where
  ids : Whitespace.strip text.blank t.targetId = Whitespace.strip text.blank t'.targetId
  message : rule.message = none ∨ rule.message = some [] → t.targetId = t'.targetId
  actual : ∀ v v', readPath text t.data rule.path = some v →
    readPath text t'.data rule.path = some v' → SameShown text (segments rule.path).getLast? v v'

/-- Which attributes a value has is a matter of its type, and they differ only where the strings of
the value do. -/
def AttributesAlike : Prop := ∀ v w name, Alike text true v w →
  Option.Rel (Alike text true) (text.typeAttribute v name) (text.typeAttribute w name)

def Hides (policies : List (Policy text.blank)) (config config' : Value) : Prop :=
  ∀ policy ∈ policies, List.Forall₂ (fun t t' =>
      conditionsMatch text t.data policy.when = .ok true → ∀ rule ∈ policy.rules,
        conditionPasses text rule.toPolicyCondition t.data = .ok false → RuleHides text rule t t')
    (targetsForPolicy text config policy.target) (targetsForPolicy text config' policy.target)

end Relations

section Shape
variable {text : TextFunctions}

mutual
theorem alike_true : ∀ (v w : Value) (below : Bool), Alike text below v w → Alike text true v w
  | .scalar _, .scalar _, _, h => h
  | .str _, .str _, _, _ => .inr rfl
  | .enum _, .enum _, _, h => h
  | .seq items, .seq others, below, h => alikeItems_true items others below h
  | .map fields, .map others, below, h => alikeFields_true fields others below h
  | .model fields, .model others, below, h => alikeFields_true fields others below h
  | .obj fields, .obj others, below, h => alikeFields_true fields others below h
  | .method v, .method w, below, h => alike_true v w below h

theorem alikeItems_true : ∀ (items others : List Value) (below : Bool),
    AlikeItems text below items others → AlikeItems text true items others
  | [], [], _, h => h
  | v :: items, w :: others, below, h =>
      ⟨alike_true v w below h.1, alikeItems_true items others below h.2⟩

theorem alikeFields_true : ∀ (fields others : List (Codes × Value)) (below : Bool),
    AlikeFields text below fields others → AlikeFields text true fields others
  | [], [], _, h => h
  | (_, v) :: fields, (_, w) :: others, below, h =>
      ⟨h.1, alike_true v w _ h.2.1, alikeFields_true fields others below h.2.2⟩
end

theorem keys_safeFields (fields : List (Codes × Value)) :
    (safeFields text fields).map Prod.fst = fields.map Prod.fst := by
  induction fields with
  | nil => rfl
  | cons p fields ih =>
    obtain ⟨key, v⟩ := p
    rw [safeFields, List.map_cons, List.map_cons, ih]

theorem keys_of_alikeFields {below : Bool} : ∀ (fields others : List (Codes × Value)),
    AlikeFields text below fields others → fields.map Prod.fst = others.map Prod.fst
  | [], [], _ => rfl
  | (key, v) :: fields, (other, w) :: others, h => by
      rw [List.map_cons, List.map_cons, keys_of_alikeFields fields others h.2.2, h.1]

theorem sortedBy_nameLt_eq_iff {xs ys : List (Codes × Value)}
    (hkeys : xs.map Prod.fst = ys.map Prod.fst) :
    sortedBy nameLt xs = sortedBy nameLt ys ↔ xs = ys :=
  sortedBy_eq_iff_of_keys (fun a b a' b' ha hb => by rw [nameLt, nameLt, ha, hb]) hkeys

mutual
theorem safeValue_eq_iff : ∀ (v w : Value) (fieldName : Option Codes), Alike text true v w →
    (safeValue text fieldName v = safeValue text fieldName w ↔ SameShown text fieldName v w)
  | .scalar a, .scalar b, fieldName, h => by
      obtain rfl : a = b := h
      exact iff_of_true rfl trivial
  | .enum a, .enum b, fieldName, h => by
      obtain rfl : a = b := h
      exact iff_of_true rfl trivial
  | .str s, .str t, fieldName, _ => by
      rw [safeValue, safeValue, Value.str.injEq, safeText, safeText, SameShown]
      by_cases hsensitive : fieldName.any (isSensitiveKey text) = true
      · rw [if_pos hsensitive, if_pos hsensitive]
        exact iff_of_true rfl (.inl hsensitive)
      · rw [if_neg hsensitive, if_neg hsensitive]
        exact (or_iff_right hsensitive).symm
  | .seq items, .seq others, fieldName, h => by
      rw [safeValue, safeValue, Value.seq.injEq, SameShown]
      exact safeItems_eq_iff items others h
  | .map fields, .map others, fieldName, h => by
      rw [safeValue, safeValue, Value.map.injEq, SameShown, sortedBy_nameLt_eq_iff]
      · exact safeFields_eq_iff fields others h
      · rw [keys_safeFields, keys_safeFields, keys_of_alikeFields fields others h]
  | .model fields, .model others, fieldName, h => by
      rw [safeValue, safeValue, Value.map.injEq, SameShown, sortedBy_nameLt_eq_iff]
      · exact safeFields_eq_iff fields others h
      · rw [keys_safeFields, keys_safeFields, keys_of_alikeFields fields others h]
  | .obj fields, .obj others, fieldName, _ => Iff.rfl
  | .method v, .method w, fieldName, _ => Iff.rfl

theorem safeItems_eq_iff : ∀ items others : List Value, AlikeItems text true items others →
    (safeItems text items = safeItems text others ↔ SameShownItems text items others)
  | [], [], _ => iff_of_true rfl trivial
  | v :: items, w :: others, h => by
      rw [safeItems, safeItems, List.cons.injEq, SameShownItems,
        safeValue_eq_iff v w none h.1, safeItems_eq_iff items others h.2]

theorem safeFields_eq_iff : ∀ fields others : List (Codes × Value),
    AlikeFields text true fields others →
      (safeFields text fields = safeFields text others ↔ SameShownFields text fields others)
  | [], [], _ => iff_of_true rfl trivial
  | (key, v) :: fields, (other, w) :: others, h => by
      obtain rfl : key = other := h.1
      rw [safeFields, safeFields, List.cons.injEq, SameShownFields, Prod.mk.injEq,
        safeFields_eq_iff fields others h.2.2]
      refine and_congr_left fun _ => ?_
      by_cases hsensitive : isSensitiveKey text key = true
      · rw [if_pos hsensitive, if_pos hsensitive]
        exact iff_of_true ⟨rfl, rfl⟩ (.inl hsensitive)
      · rw [if_neg hsensitive, if_neg hsensitive, safeValue_eq_iff v w (some key) h.2.1]
        exact ⟨fun hboth => .inr hboth.2, fun hor => ⟨rfl, hor.resolve_left hsensitive⟩⟩
end

end Shape

section Loops
variable {α β γ : Type} {f : α → Except PyError (List γ)} {g : β → Except PyError (List γ)}
  {x y : Except PyError (List γ)} {case case' : Prop}

theorem SameWhen.congr (h : SameWhen x y case) (hcase : case ↔ case') : SameWhen x y case' := by
  obtain ⟨r, s, hx, hy, hlen, hiff⟩ := h
  exact ⟨r, s, hx, hy, hlen, hiff.trans hcase⟩

theorem SameWhen.append {x' y' : Except PyError (List γ)} (h : SameWhen x y case)
    (h' : SameWhen x' y' case') :
    SameWhen (x.bind fun r => x'.map fun r' => r ++ r') (y.bind fun s => y'.map fun s' => s ++ s')
      (case ∧ case') := by
  obtain ⟨r, s, rfl, rfl, hlen, hiff⟩ := h
  obtain ⟨r', s', rfl, rfl, hlen', hiff'⟩ := h'
  refine ⟨r ++ r', s ++ s', rfl, rfl, ?_, ?_⟩
  · rw [List.length_append, List.length_append, hlen, hlen']
  · rw [← hiff, ← hiff']
    exact ⟨fun h => List.append_inj h hlen, fun h => by rw [h.1, h.2]⟩

theorem SameWhen.mapM {P : α → β → Prop} {as : List α} {bs : List β}
    (h : List.Forall₂ (fun a b => SameWhen (f a) (g b) (P a b)) as bs) :
    SameWhen ((as.mapM f).map List.flatten) ((bs.mapM g).map List.flatten)
      (List.Forall₂ P as bs) := by
  induction h with
  | nil => exact ⟨[], [], rfl, rfl, rfl, iff_of_true rfl .nil⟩
  | @cons a b as bs hab h ih =>
    have hstep : ∀ {α : Type} (f : α → Except PyError (List γ)) (a : α) (as : List α),
        ((a :: as).mapM f).map List.flatten =
          (f a).bind fun r => ((as.mapM f).map List.flatten).map fun r' => r ++ r' := by
      intro α f a as
      rw [List.mapM_cons]
      cases f a with
      | error exc => rfl
      | ok r => cases as.mapM f <;> rfl
    rw [hstep, hstep]
    exact (hab.append ih).congr List.forall₂_cons.symm

end Loops

section Reading
variable {text : TextFunctions}

theorem rel_bind {α β : Type} {r : α → α → Prop} {s : β → β → Prop} {o o' : Option α}
    {f g : α → Option β} (h : Option.Rel r o o')
    (hfg : ∀ a b, r a b → Option.Rel s (f a) (g b)) : Option.Rel s (o.bind f) (o'.bind g) := by
  cases h with
  | none => exact .none
  | some hab => exact hfg _ _ hab

theorem alike_field : ∀ (fields others : List (Codes × Value)) (name : Codes),
    AlikeFields text true fields others →
      Option.Rel (Alike text true) (field fields name) (field others name)
  | [], [], _, _ => .none
  | (key, v) :: fields, (other, w) :: others, name, h => by
      obtain rfl : key = other := h.1
      by_cases hname : key = name
      · have hfound : ∀ u rest, field ((key, u) :: rest) name = some u := by
          intro u rest
          simp [field, hname]
        rw [hfound, hfound]
        exact .some h.2.1
      · have hskip : ∀ u rest, field ((key, u) :: rest) name = field rest name := by
          intro u rest
          simp [field, hname]
        rw [hskip, hskip]
        exact alike_field fields others name h.2.2

mutual
theorem alike_dump : ∀ v w : Value, Alike text true v w → Alike text true (dump v) (dump w)
  | .scalar _, .scalar _, h => h
  | .str _, .str _, h => h
  | .enum _, .enum _, h => h
  | .seq items, .seq others, h => alike_dumpItems items others h
  | .map fields, .map others, h => alike_dumpFields fields others h
  | .model fields, .model others, h => alike_dumpFields fields others h
  | .obj _, .obj _, h => h
  | .method _, .method _, h => h

theorem alike_dumpItems : ∀ items others : List Value, AlikeItems text true items others →
    AlikeItems text true (dumpItems items) (dumpItems others)
  | [], [], h => h
  | v :: items, w :: others, h => ⟨alike_dump v w h.1, alike_dumpItems items others h.2⟩

theorem alike_dumpFields : ∀ fields others : List (Codes × Value),
    AlikeFields text true fields others →
      AlikeFields text true (dumpFields fields) (dumpFields others)
  | [], [], h => h
  | (_, v) :: fields, (_, w) :: others, h =>
      ⟨h.1, alike_dump v w h.2.1, alike_dumpFields fields others h.2.2⟩
end

theorem alike_getattr (hattributes : AttributesAlike text) {v w : Value} (h : Alike text true v w)
    (name : Codes) :
    Option.Rel (Alike text true) (getattr text v name) (getattr text w name) := by
  have htype := hattributes v w name h
  cases v <;> cases w <;> first | exact h.elim | exact htype | skip
  rename_i attributes others
  have hown := alike_field attributes others name h
  simp only [getattr]
  revert hown
  generalize field attributes name = found
  generalize field others name = found'
  intro hown
  cases hown with
  | none => exact htype
  | some hab => exact .some hab

theorem alike_readSegments (hattributes : AttributesAlike text) (path : List Codes) :
    ∀ v w : Value, Alike text true v w → Option.Rel (Alike text true) (readSegments text v path) (readSegments text w path) := by
  induction path with
  | nil => exact fun v w h => .some h
  | cons segment rest ih =>
    have hbelow : ∀ fields others : List (Codes × Value), AlikeFields text true fields others →
        Option.Rel (Alike text true)
          ((field fields segment).bind fun u => readSegments text u rest)
          ((field others segment).bind fun u => readSegments text u rest) := by
      intro fields others h
      exact rel_bind (alike_field fields others segment h) ih
    intro v w h
    have hattribute := rel_bind (alike_getattr hattributes h segment) ih
    cases v <;> cases w <;> first | exact h.elim | exact hattribute | skip
    · exact hbelow _ _ h
    · exact hbelow _ _ (alike_dumpFields _ _ h)

theorem alike_readPath (hattributes : AttributesAlike text) {v w : Value}
    (h : Alike text true v w) (path : Codes) :
    Option.Rel (Alike text true) (readPath text v path) (readPath text w path) :=
  alike_readSegments hattributes (segments path) v w h

theorem alike_valueForKey (hattributes : AttributesAlike text) {v w : Value}
    (h : Alike text true v w) (key : Codes) :
    Option.Rel (Alike text true) (valueForKey text v key) (valueForKey text w key) := by
  rw [valueForKey, valueForKey, Option.map_eq_bind, Option.map_eq_bind]
  refine rel_bind (alike_readPath hattributes h key) fun u u' hu => .some ?_
  cases u <;> cases u' <;> first | exact hu | exact hu.elim

theorem forall₂_of_alikeItems : ∀ items others : List Value, AlikeItems text true items others →
    List.Forall₂ (Alike text true) items others
  | [], [], _ => .nil
  | _ :: items, _ :: others, h => .cons h.1 (forall₂_of_alikeItems items others h.2)

theorem forall₂_of_alikeFields : ∀ fields others : List (Codes × Value),
    AlikeFields text true fields others →
      List.Forall₂ (Alike text true) (fields.map Prod.snd) (others.map Prod.snd)
  | [], [], _ => .nil
  | (_, _) :: fields, (_, _) :: others, h =>
      .cons h.2.1 (forall₂_of_alikeFields fields others h.2.2)

theorem alike_sequenceFromConfig (hattributes : AttributesAlike text) {v w : Value}
    (h : Alike text true v w) (primary secondary : String) :
    List.Forall₂ (Alike text true) (sequenceFromConfig text v primary secondary)
      (sequenceFromConfig text w primary secondary) := by
  have hfound : Option.Rel (Alike text true)
      ((valueForKey text v (codes primary)).or (valueForKey text v (codes secondary)))
      ((valueForKey text w (codes primary)).or (valueForKey text w (codes secondary))) := by
    rcases hv : valueForKey text v (codes primary) with _ | a <;>
      rcases hw : valueForKey text w (codes primary) with _ | b
    · exact alike_valueForKey hattributes h (codes secondary)
    all_goals
      have hprimary := alike_valueForKey hattributes h (codes primary)
      rw [hv, hw] at hprimary
      cases hprimary
    rename_i hab
    exact .some hab
  rw [sequenceFromConfig, sequenceFromConfig]
  revert hfound
  generalize (valueForKey text v (codes primary)).or (valueForKey text v (codes secondary)) = found
  generalize (valueForKey text w (codes primary)).or (valueForKey text w (codes secondary)) = found'
  intro hfound
  cases hfound with
  | none => exact .nil
  | @some a b hab =>
    cases a <;> cases b <;> first | exact hab.elim | skip
    case scalar.scalar a b =>
      obtain rfl : a = b := hab
      cases a <;> first | exact .nil | exact .cons rfl .nil
    case seq.seq items others => exact forall₂_of_alikeItems items others hab
    case map.map fields others => exact forall₂_of_alikeFields fields others hab
    all_goals exact .cons hab .nil

def AlikeTarget (text : TextFunctions) (t t' : TargetRecord) : Prop :=
  t.target = t'.target ∧ Alike text true t.data t'.data

theorem alike_targets (hattributes : AttributesAlike text) {v w : Value}
    (h : Alike text true v w) (target : PolicyTarget) :
    List.Forall₂ (AlikeTarget text) (targetsForPolicy text v target)
      (targetsForPolicy text w target) := by
  have hindexed : ∀ (kind : PolicyTarget) (names : List String) {items others : List Value},
      List.Forall₂ (Alike text true) items others → List.Forall₂ (AlikeTarget text)
        (indexed text kind names items) (indexed text kind names others) := by
    intro kind names items others hitems
    rw [indexed, indexed]
    generalize 0 = start
    induction hitems generalizing start with
    | nil => exact .nil
    | cons hab _ ih => exact .cons ⟨rfl, hab⟩ (ih (start + 1))
  cases target with
  | capability =>
    rw [targetsForPolicy, targetsForPolicy]
    have hfound := alike_valueForKey hattributes h (codes "capability")
    revert hfound
    generalize valueForKey text v (codes "capability") = found
    generalize valueForKey text w (codes "capability") = found'
    intro hfound
    cases hfound with
    | none => exact .nil
    | @some a b hab =>
      cases a <;> cases b <;> first | exact hab.elim | skip
      case scalar.scalar a b =>
        obtain rfl : a = b := hab
        cases a <;> first | exact .nil | exact .cons ⟨rfl, rfl⟩ .nil
      all_goals exact .cons ⟨rfl, hab⟩ .nil
  | provider => exact hindexed _ _ (alike_sequenceFromConfig hattributes h _ _)
  | workload => exact hindexed _ _ (alike_sequenceFromConfig hattributes h _ _)

end Reading

theorem PolicyOperator.value_letter (operator : PolicyOperator) :
    ∃ front c, operator.value = front ++ [c] ∧ 97 ≤ c ∧ c ≤ 122 := by
  have hlast : ∃ c ∈ operator.value.getLast?, 97 ≤ c ∧ c ≤ 122 := by
    cases operator <;> decide +kernel
  obtain ⟨c, hc, hletter⟩ := hlast
  obtain ⟨front, hfront⟩ := List.getLast?_eq_some_iff.mp hc
  exact ⟨front, c, hfront, hletter⟩

section Violations
variable {text : TextFunctions} {policy : Policy text.blank} {t t' : TargetRecord}

theorem strip_defaultMessage_inj {rule : PolicyRule} {id id' : Codes} :
    Whitespace.strip text.blank (defaultViolationMessage text policy rule id) =
      Whitespace.strip text.blank (defaultViolationMessage text policy rule id') ↔ id = id' := by
  have htrimmed : ∀ id, Whitespace.strip text.blank (defaultViolationMessage text policy rule id) =
      defaultViolationMessage text policy rule id := by
    intro id
    refine Whitespace.strip_of_trimmed ⟨?_, ?_⟩
    · obtain ⟨c, hc, hblank⟩ := policy.nonblank
      obtain ⟨rest, hid⟩ := List.head?_eq_some_iff.mp hc
      intro d hd
      rw [defaultViolationMessage, hid] at hd
      obtain rfl := Option.some.inj hd
      exact hblank
    · obtain ⟨front, c, hvalue, hletter⟩ := rule.operator.value_letter
      intro d hd
      rw [defaultViolationMessage, hvalue, ← List.append_assoc, List.getLast?_concat] at hd
      obtain rfl := Option.some.inj hd
      exact text.letters c hletter.1 hletter.2
  rw [htrimmed, htrimmed]
  refine ⟨fun h => ?_, fun h => by rw [h]⟩
  simpa [defaultViolationMessage] using h

theorem violationOf_eq_iff (hattributes : AttributesAlike text) (h : AlikeTarget text t t')
    (rule : PolicyRule) :
    violationOf text policy t rule = violationOf text policy t' rule ↔
      RuleHides text rule t t' := by
  have hmessage : Whitespace.strip text.blank (ruleMessage text policy rule t.targetId) =
      Whitespace.strip text.blank (ruleMessage text policy rule t'.targetId) ↔
        (rule.message = none ∨ rule.message = some [] → t.targetId = t'.targetId) := by
    rw [ruleMessage, ruleMessage]
    rcases rule.message with _ | _ | ⟨c, rest⟩
    · simp [strip_defaultMessage_inj]
    · simp [strip_defaultMessage_inj]
    · simp
  have hactual : (violationOf text policy t rule).actual =
        (violationOf text policy t' rule).actual ↔
      ∀ v v', readPath text t.data rule.path = some v → readPath text t'.data rule.path = some v' →
        SameShown text (segments rule.path).getLast? v v' := by
    have hread := alike_readPath hattributes h.2 rule.path
    revert hread
    simp only [violationOf]
    generalize readPath text t.data rule.path = found
    generalize readPath text t'.data rule.path = found'
    intro hread
    cases hread with
    | none => simp
    | @some v v' hv =>
      simp only [safeValue_eq_iff v v' _ hv]
      refine ⟨fun hshown u u' hu hu' => ?_, fun hall => hall v v' rfl rfl⟩
      rw [← Option.some.inj hu, ← Option.some.inj hu']
      exact hshown
  rw [violationOf, violationOf, PolicyViolation.mk.injEq]
  constructor
  · rintro ⟨-, -, hid, -, -, -, hact, hmsg⟩
    exact ⟨hid, hmessage.mp hmsg, hactual.mp hact⟩
  · rintro ⟨hid, hmsg, hact⟩
    exact ⟨rfl, h.1, hid, rfl, rfl, rfl, hactual.mpr hact, hmessage.mpr hmsg⟩

theorem conditionsMatch_same {conditions : List PolicyCondition} {v w : Value}
    (h : ∀ condition ∈ conditions, ∃ b, conditionPasses text condition v = .ok b ∧
      conditionPasses text condition w = .ok b) :
    ∃ b, conditionsMatch text v conditions = .ok b ∧ conditionsMatch text w conditions = .ok b := by
  induction conditions with
  | nil => exact ⟨true, rfl, rfl⟩
  | cons condition conditions ih =>
    obtain ⟨⟨b, hv, hw⟩, hrest⟩ := List.forall_mem_cons.mp h
    rw [conditionsMatch, conditionsMatch, hv, hw]
    cases b with
    | false => exact ⟨false, rfl, rfl⟩
    | true => exact ih hrest

theorem ruleViolations_same (hattributes : AttributesAlike text) (h : AlikeTarget text t t')
    (rules : List PolicyRule)
    (hrules : ∀ rule ∈ rules, ∃ b, conditionPasses text rule.toPolicyCondition t.data = .ok b ∧
      conditionPasses text rule.toPolicyCondition t'.data = .ok b) :
    SameWhen (ruleViolations text policy t rules) (ruleViolations text policy t' rules)
      (∀ rule ∈ rules, conditionPasses text rule.toPolicyCondition t.data = .ok false →
        RuleHides text rule t t') := by
  induction rules with
  | nil => exact ⟨[], [], rfl, rfl, rfl, iff_of_true rfl (by simp)⟩
  | cons rule rules ih =>
    obtain ⟨⟨b, hb, hb'⟩, hrest⟩ := List.forall_mem_cons.mp hrules
    obtain ⟨r, s, hr, hs, hlen, hiff⟩ := ih hrest
    rw [ruleViolations, ruleViolations, hb, hb', hr, hs]
    cases b with
    | true =>
      refine ⟨r, s, rfl, rfl, hlen, hiff.trans ?_⟩
      rw [List.forall_mem_cons, hb]
      simp
    | false =>
      refine ⟨violationOf text policy t rule :: r, violationOf text policy t' rule :: s, rfl, rfl,
        congrArg Nat.succ hlen, ?_⟩
      rw [List.cons.injEq, violationOf_eq_iff hattributes h, hiff, List.forall_mem_cons, hb]
      simp

theorem targetViolations_same (hattributes : AttributesAlike text) (h : AlikeTarget text t t')
    (hsame : SamePolicy text policy t t') :
    SameWhen (targetViolations text policy t) (targetViolations text policy t')
      (conditionsMatch text t.data policy.when = .ok true → ∀ rule ∈ policy.rules,
        conditionPasses text rule.toPolicyCondition t.data = .ok false →
          RuleHides text rule t t') := by
  obtain ⟨b, hb, hb'⟩ := conditionsMatch_same hsame.conditions
  rw [targetViolations, targetViolations, hb, hb']
  cases b with
  | false => exact ⟨[], [], rfl, rfl, rfl, iff_of_true rfl (by simp)⟩
  | true =>
    refine (ruleViolations_same hattributes h policy.rules hsame.rules).congr ?_
    simp

/-- On two configurations that differ only in strings below sensitive keys, and on which everything
evaluates the same way, the results are the same exactly where every violated rule hides the
difference. -/
theorem policy_results_same_iff (hattributes : AttributesAlike text)
    (policies : List (Policy text.blank)) (config config' : Value)
    (halike : Alike text false config config')
    (hsame : EvaluatesSame text policies config config') :
    evaluatePolicies text policies config = evaluatePolicies text policies config' ↔
      Hides text policies config config' := by
  have hshape := alike_true config config' false halike
  have hpolicies : List.Forall₂ (fun policy policy' : Policy text.blank => SameWhen
      (policyViolations text config policy) (policyViolations text config' policy')
      (List.Forall₂ (fun t t' => conditionsMatch text t.data policy.when = .ok true →
          ∀ rule ∈ policy.rules, conditionPasses text rule.toPolicyCondition t.data = .ok false →
            RuleHides text rule t t')
        (targetsForPolicy text config policy.target)
        (targetsForPolicy text config' policy.target))) policies policies := by
    refine List.forall₂_same.mpr fun policy hpolicy => SameWhen.mapM ?_
    obtain ⟨hlen, hpairs⟩ :=
      List.forall₂_iff_zip.mp (alike_targets hattributes hshape policy.target)
    obtain ⟨-, heval⟩ := List.forall₂_iff_zip.mp (hsame policy hpolicy)
    exact List.forall₂_iff_zip.mpr ⟨hlen, fun hmem =>
      targetViolations_same hattributes (hpairs hmem) (heval hmem)⟩
  obtain ⟨r, s, hr, hs, -, hiff⟩ := SameWhen.mapM hpolicies
  have hresult : ∀ (c : Value) (violations : List PolicyViolation),
      (policies.mapM (policyViolations text c)).map List.flatten = .ok violations →
        evaluatePolicies text policies c = .ok (fromViolations violations) := by
    intro c violations h
    obtain ⟨all, hall, rfl⟩ := Except.map_eq_ok_iff.mp h
    rw [evaluatePolicies, hall]
    rfl
  rw [hresult config r hr, hresult config' s hs, Except.ok.injEq]
  refine Iff.trans ?_ (hiff.trans List.forall₂_same)
  exact ⟨fun h => congrArg PolicyEvaluationResult.violations h, fun h => by rw [h]⟩

end Violations

section Example

def boundMethod (s name : Codes) : Value :=
  .obj [(codes "__self__", .str s), (codes "__name__", .str name)]

/-- The text functions on ASCII characters, without numbers and patterns; a text has its method
`upper`. -/
def exampleText : TextFunctions where
  lower := List.map fun c => if 65 ≤ c ∧ c ≤ 90 then c + 32 else c
  str _ := []
  same _ _ := false
  search _ _ := .ok false
  decimal _ := none
  typeAttribute
    | .str s, name => if name = codes "upper" then some (boundMethod s name) else none
    | _, _ => none
  blank c := c ≤ 32
  letters c h _ := decide_eq_false (by omega)

theorem attributesAlike_exampleText : AttributesAlike exampleText := by
  intro v w name h
  cases v <;> cases w <;> first | exact h.elim | exact .none | skip
  simp only [exampleText]
  split
  · exact .some ⟨rfl, .inr (Bool.true_or _), rfl, .inl rfl, trivial⟩
  · exact .none

def noTokens : Policy exampleText.blank where
  id := codes "no-tokens"
  target := .provider
  when := []
  rules := [⟨⟨codes "token", .notExists, .scalar .none⟩, none⟩]
  nonblank := ⟨'n'.toNat, rfl, rfl⟩

def oneToken (token : Value) : Value :=
  .map [(codes "providers", .seq [.map [(codes "id", .str (codes "p1")),
    (codes "token", token)]])]

def listedToken (token : String) : Value := oneToken (.seq [.str (codes token)])

theorem alike_oneToken {token token' : Value} (h : Alike exampleText true token token') :
    Alike exampleText false (oneToken token) (oneToken token') := by
  have hsensitive : isSensitiveKey exampleText (codes "token") = true := by decide +kernel
  refine ⟨rfl, ⟨⟨rfl, .inl rfl, rfl, ?_, trivial⟩, trivial⟩, trivial⟩
  rw [hsensitive, Bool.or_true]
  exact h

theorem evaluatesSame_oneToken {token token' : Value} (h : ∀ a, token ≠ .scalar a)
    (h' : ∀ a, token' ≠ .scalar a) :
    EvaluatesSame exampleText [noTokens] (oneToken token) (oneToken token') := by
  have hviolated : ∀ {token : Value}, (∀ a, token ≠ .scalar a) → conditionPasses exampleText
      ⟨codes "token", .notExists, .scalar .none⟩
      (.map [(codes "id", .str (codes "p1")), (codes "token", token)]) = .ok false := by
    intro token h
    cases token <;> first | rfl | exact absurd rfl (h _)
  refine List.forall_mem_singleton.mpr (.cons ⟨List.forall_mem_nil _, ?_⟩ .nil)
  exact List.forall_mem_singleton.mpr ⟨false, hviolated h, hviolated h'⟩

/-- A token that stands by itself is redacted. -/
theorem plain_token_is_hidden :
    evaluatePolicies exampleText [noTokens] (oneToken (.str (codes "alpha"))) =
      evaluatePolicies exampleText [noTokens] (oneToken (.str (codes "omega"))) := by
  have halike : Alike exampleText true (.str (codes "alpha")) (.str (codes "omega")) := .inr rfl
  refine (policy_results_same_iff attributesAlike_exampleText [noTokens] _ _
    (alike_oneToken halike) (evaluatesSame_oneToken (by simp) (by simp))).mpr ?_
  refine List.forall_mem_singleton.mpr (.cons (fun _ => ?_) .nil)
  refine List.forall_mem_singleton.mpr fun _ => ⟨rfl, fun _ => rfl, fun v v' hv hv' => ?_⟩
  obtain rfl := Option.some.inj hv
  obtain rfl := Option.some.inj hv'
  exact .inl (by decide +kernel)

/-- A violation carries a token that stands in a list. -/
theorem listed_token_is_shown :
    Alike exampleText false (listedToken "alpha") (listedToken "omega") ∧
      EvaluatesSame exampleText [noTokens] (listedToken "alpha") (listedToken "omega") ∧
      evaluatePolicies exampleText [noTokens] (listedToken "alpha") ≠
        evaluatePolicies exampleText [noTokens] (listedToken "omega") := by
  refine ⟨alike_oneToken ⟨.inr rfl, trivial⟩, evaluatesSame_oneToken (by simp) (by simp),
    fun heq => ?_⟩
  have halpha : (evaluatePolicies exampleText [noTokens] (listedToken "alpha")).map
      (fun r => r.violations.map PolicyViolation.actual) = .ok [.seq [.str (codes "alpha")]] := rfl
  have homega : (evaluatePolicies exampleText [noTokens] (listedToken "omega")).map
      (fun r => r.violations.map PolicyViolation.actual) = .ok [.seq [.str (codes "omega")]] := rfl
  rw [heq, homega] at halpha
  have hcodes : codes "omega" = codes "alpha" := by simpa using halpha
  exact absurd hcodes (by decide)

end Example

end Pitwall.Policies
