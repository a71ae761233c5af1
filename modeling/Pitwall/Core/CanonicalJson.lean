import Mathlib.Data.String.Basic
import Pitwall.Cost.SyncGate
import Pitwall.Library.Sorting
set_option autoImplicit false

/-!
The canonical form in which a stored input is compared with the parameters of a retry, and
what the sanitiser and the `jsonb` column do to it.
-/

namespace Pitwall

def keyLt (a b : String × Json) : Bool := decide (a.1 < b.1)

mutual
/-- The value that `_canonical_json` writes out: every object with its keys in order. Two
values have the same text exactly when they have the same canonical form. -/
def canonicalJson : Json → Json
  | .arr xs => .arr (canonicalItems xs)
  | .obj d => .obj (sortedBy keyLt (canonicalFields d))
  | value => value

def canonicalItems : List Json → List Json
  | [] => []
  | x :: xs => canonicalJson x :: canonicalItems xs

def canonicalFields : JsonObject → JsonObject
  | [] => []
  | (key, x) :: d => (key, canonicalJson x) :: canonicalFields d
end

namespace Json

mutual
def beq : Json → Json → Bool
  | .null, .null => true
  | .bool a, .bool b => a = b
  | .int a, .int b => a = b
  | .float a, .float b => a = b
  | .str a, .str b => a = b
  | .arr xs, .arr ys => beqItems xs ys
  | .obj d, .obj e => beqFields d e
  | _, _ => false

def beqItems : List Json → List Json → Bool
  | [], [] => true
  | x :: xs, y :: ys => beq x y && beqItems xs ys
  | _, _ => false

def beqFields : JsonObject → JsonObject → Bool
  | [], [] => true
  | (j, x) :: d, (k, y) :: e => decide (j = k) && beq x y && beqFields d e
  | _, _ => false
end

mutual
theorem beq_iff : ∀ a b : Json, beq a b = true ↔ a = b
  | .null, b => by cases b <;> simp [beq]
  | .bool x, b => by cases b <;> simp [beq]
  | .int x, b => by cases b <;> simp [beq]
  | .float x, b => by cases b <;> simp [beq]
  | .str x, b => by cases b <;> simp [beq]
  | .arr xs, b => by cases b <;> simp [beq, beqItems_iff xs]
  | .obj d, b => by cases b <;> simp [beq, beqFields_iff d]

theorem beqItems_iff : ∀ xs ys : List Json, beqItems xs ys = true ↔ xs = ys
  | [], ys => by cases ys <;> simp [beqItems]
  | x :: xs, ys => by cases ys <;> simp [beqItems, beq_iff x, beqItems_iff xs]

theorem beqFields_iff : ∀ d e : JsonObject, beqFields d e = true ↔ d = e
  | [], e => by cases e <;> simp [beqFields]
  | (j, x) :: d, e => by
      cases e <;> simp [beqFields, beq_iff x, beqFields_iff d, Prod.ext_iff]
end

instance : DecidableEq Json := fun a b => decidable_of_iff _ (beq_iff a b)

mutual
/-- No object has a key twice, as in every value that `json.loads` builds. -/
def UniqueKeys : Json → Prop
  | .arr xs => UniqueKeysItems xs
  | .obj d => (d.map Prod.fst).Nodup ∧ UniqueKeysFields d
  | _ => True

def UniqueKeysItems : List Json → Prop
  | [] => True
  | x :: xs => UniqueKeys x ∧ UniqueKeysItems xs

def UniqueKeysFields : JsonObject → Prop
  | [] => True
  | (_, x) :: d => UniqueKeys x ∧ UniqueKeysFields d
end

mutual
def nonFinite : Json → Nat
  | .float (.finite _) => 0
  | .float _ => 1
  | .arr xs => nonFiniteItems xs
  | .obj d => nonFiniteFields d
  | _ => 0

def nonFiniteItems : List Json → Nat
  | [] => 0
  | x :: xs => nonFinite x + nonFiniteItems xs

def nonFiniteFields : JsonObject → Nat
  | [] => 0
  | (_, x) :: d => nonFinite x + nonFiniteFields d
end

end Json

/-- The order in which a `jsonb` column gives the keys of an object back. -/
structure KeyOrder where
  order : JsonObject → JsonObject
  perm : ∀ d, (order d).Perm d

mutual
/-- What the column reads back for a value: the same value, its keys in the column's order. -/
def KeyOrder.readBack (k : KeyOrder) : Json → Json
  | .arr xs => .arr (k.readBackItems xs)
  | .obj d => .obj (k.order (k.readBackFields d))
  | value => value

def KeyOrder.readBackItems (k : KeyOrder) : List Json → List Json
  | [] => []
  | x :: xs => k.readBack x :: k.readBackItems xs

def KeyOrder.readBackFields (k : KeyOrder) : JsonObject → JsonObject
  | [] => []
  | (key, x) :: d => (key, k.readBack x) :: k.readBackFields d
end

open Json

theorem canonicalFields_eq_map (d : JsonObject) :
    canonicalFields d = d.map fun p => (p.1, canonicalJson p.2) := by
  induction d with
  | nil => rfl
  | cons p d ih =>
    obtain ⟨key, x⟩ := p
    rw [canonicalFields, ih, List.map_cons]

theorem nonFiniteFields_eq_sum (d : JsonObject) :
    nonFiniteFields d = (d.map fun p => p.2.nonFinite).sum := by
  induction d with
  | nil => rfl
  | cons p d ih =>
    obtain ⟨key, x⟩ := p
    rw [nonFiniteFields, ih, List.map_cons, List.sum_cons]

theorem nonFiniteFields_perm {d e : JsonObject} (h : d.Perm e) :
    nonFiniteFields d = nonFiniteFields e := by
  rw [nonFiniteFields_eq_sum, nonFiniteFields_eq_sum]
  exact (h.map _).sum_eq

theorem sortedBy_keyLt_of_perm {d e : JsonObject} (hkeys : (d.map Prod.fst).Nodup)
    (h : d.Perm e) : sortedBy keyLt d = sortedBy keyLt e := by
  have hcompares : ComparesBy keyLt Prod.fst d := by
    intro a _ b _
    rw [keyLt, decide_eq_true_eq]
  have hinj : ∀ a ∈ d, ∀ b ∈ d, a.1 = b.1 → a = b := fun a ha b hb hab =>
    List.inj_on_of_nodup_map hkeys ha hb hab
  exact sortedBy_eq_of_perm hcompares hinj h

section Keys
variable (k : KeyOrder)

theorem keys_canonicalFields (d : JsonObject) :
    (canonicalFields d).map Prod.fst = d.map Prod.fst := by
  rw [canonicalFields_eq_map, List.map_map]
  rfl

theorem keys_jsonSafeFields (d : JsonObject) :
    (jsonSafeFields d).map Prod.fst = d.map Prod.fst := by
  induction d with
  | nil => rfl
  | cons p d ih =>
    obtain ⟨key, x⟩ := p
    simp only [jsonSafeFields, List.map_cons, ih]

mutual
theorem uniqueKeys_jsonSafe : ∀ {v : Json}, v.UniqueKeys → (jsonSafe v).UniqueKeys
  | .null, _ => trivial
  | .bool _, _ => trivial
  | .int _, _ => trivial
  | .str _, _ => trivial
  | .float x, _ => by
      cases x with
      | finite q => trivial
      | infinite negative => cases negative <;> trivial
      | nan => trivial
  | .arr _, h => uniqueKeys_jsonSafeItems h
  | .obj d, h => ⟨by rw [keys_jsonSafeFields]; exact h.1, uniqueKeys_jsonSafeFields h.2⟩

theorem uniqueKeys_jsonSafeItems : ∀ {xs : List Json},
    UniqueKeysItems xs → UniqueKeysItems (jsonSafeItems xs)
  | [], _ => trivial
  | _ :: _, h => ⟨uniqueKeys_jsonSafe h.1, uniqueKeys_jsonSafeItems h.2⟩

theorem uniqueKeys_jsonSafeFields : ∀ {d : JsonObject},
    UniqueKeysFields d → UniqueKeysFields (jsonSafeFields d)
  | [], _ => trivial
  | (_, _) :: _, h => ⟨uniqueKeys_jsonSafe h.1, uniqueKeys_jsonSafeFields h.2⟩
end

mutual
theorem canonicalJson_readBack : ∀ {v : Json},
    v.UniqueKeys → canonicalJson (k.readBack v) = canonicalJson v
  | .null, _ => rfl
  | .bool _, _ => rfl
  | .int _, _ => rfl
  | .str _, _ => rfl
  | .float _, _ => rfl
  | .arr xs, h => by
      simp only [KeyOrder.readBack, canonicalJson, canonicalItems_readBack h]
  | .obj d, h => by
      simp only [KeyOrder.readBack, canonicalJson]
      have hperm : (canonicalFields (k.order (k.readBackFields d))).Perm (canonicalFields d) := by
        rw [← canonicalFields_readBack h.2, canonicalFields_eq_map, canonicalFields_eq_map]
        exact (k.perm _).map _
      have hkeys : ((canonicalFields d).map Prod.fst).Nodup := by
        rw [keys_canonicalFields]
        exact h.1
      rw [sortedBy_keyLt_of_perm hkeys hperm.symm]

theorem canonicalItems_readBack : ∀ {xs : List Json},
    UniqueKeysItems xs → canonicalItems (k.readBackItems xs) = canonicalItems xs
  | [], _ => rfl
  | _ :: _, h => by
      simp only [KeyOrder.readBackItems, canonicalItems, canonicalJson_readBack h.1,
        canonicalItems_readBack h.2]

theorem canonicalFields_readBack : ∀ {d : JsonObject},
    UniqueKeysFields d → canonicalFields (k.readBackFields d) = canonicalFields d
  | [], _ => rfl
  | (_, _) :: _, h => by
      simp only [KeyOrder.readBackFields, canonicalFields, canonicalJson_readBack h.1,
        canonicalFields_readBack h.2]
end

end Keys

section Finite
variable (k : KeyOrder)

mutual
@[simp] theorem nonFinite_canonicalJson : ∀ v : Json, (canonicalJson v).nonFinite = v.nonFinite
  | .null => rfl
  | .bool _ => rfl
  | .int _ => rfl
  | .str _ => rfl
  | .float _ => rfl
  | .arr xs => nonFinite_canonicalItems xs
  | .obj d =>
      (nonFiniteFields_perm (sortedBy_perm keyLt _)).trans (nonFinite_canonicalFields d)

theorem nonFinite_canonicalItems : ∀ xs : List Json,
    nonFiniteItems (canonicalItems xs) = nonFiniteItems xs
  | [] => rfl
  | x :: xs => by
      simp only [canonicalItems, nonFiniteItems, nonFinite_canonicalJson x,
        nonFinite_canonicalItems xs]

theorem nonFinite_canonicalFields : ∀ d : JsonObject,
    nonFiniteFields (canonicalFields d) = nonFiniteFields d
  | [] => rfl
  | (_, x) :: d => by
      simp only [canonicalFields, nonFiniteFields, nonFinite_canonicalJson x,
        nonFinite_canonicalFields d]
end

mutual
@[simp] theorem nonFinite_readBack : ∀ v : Json, (k.readBack v).nonFinite = v.nonFinite
  | .null => rfl
  | .bool _ => rfl
  | .int _ => rfl
  | .str _ => rfl
  | .float _ => rfl
  | .arr xs => nonFinite_readBackItems xs
  | .obj d => (nonFiniteFields_perm (k.perm _)).trans (nonFinite_readBackFields d)

theorem nonFinite_readBackItems : ∀ xs : List Json,
    nonFiniteItems (k.readBackItems xs) = nonFiniteItems xs
  | [] => rfl
  | x :: xs => by
      simp only [KeyOrder.readBackItems, nonFiniteItems, nonFinite_readBack x,
        nonFinite_readBackItems xs]

theorem nonFinite_readBackFields : ∀ d : JsonObject,
    nonFiniteFields (k.readBackFields d) = nonFiniteFields d
  | [] => rfl
  | (_, x) :: d => by
      simp only [KeyOrder.readBackFields, nonFiniteFields, nonFinite_readBack x,
        nonFinite_readBackFields d]
end

mutual
@[simp] theorem nonFinite_jsonSafe : ∀ v : Json, (jsonSafe v).nonFinite = 0
  | .null => rfl
  | .bool _ => rfl
  | .int _ => rfl
  | .str _ => rfl
  | .float x => by
      cases x with
      | finite q => rfl
      | infinite negative => cases negative <;> rfl
      | nan => rfl
  | .arr xs => nonFinite_jsonSafeItems xs
  | .obj d => nonFinite_jsonSafeFields d

theorem nonFinite_jsonSafeItems : ∀ xs : List Json, nonFiniteItems (jsonSafeItems xs) = 0
  | [] => rfl
  | x :: xs => by
      simp only [jsonSafeItems, nonFiniteItems, nonFinite_jsonSafe x, nonFinite_jsonSafeItems xs]

theorem nonFinite_jsonSafeFields : ∀ d : JsonObject, nonFiniteFields (jsonSafeFields d) = 0
  | [] => rfl
  | (_, x) :: d => by
      simp only [jsonSafeFields, nonFiniteFields, nonFinite_jsonSafe x, nonFinite_jsonSafeFields d]
end

mutual
theorem jsonSafe_of_finite : ∀ {v : Json}, v.nonFinite = 0 → jsonSafe v = v
  | .null, _ => rfl
  | .bool _, _ => rfl
  | .int _, _ => rfl
  | .str _, _ => rfl
  | .float x, h => by
      cases x with
      | finite q => rfl
      | infinite negative => contradiction
      | nan => contradiction
  | .arr xs, h => by rw [jsonSafe, jsonSafeItems_of_finite h]
  | .obj d, h => by rw [jsonSafe, jsonSafeFields_of_finite h]

theorem jsonSafeItems_of_finite : ∀ {xs : List Json},
    nonFiniteItems xs = 0 → jsonSafeItems xs = xs
  | [], _ => rfl
  | x :: xs, h => by
      obtain ⟨hx, hxs⟩ := Nat.add_eq_zero_iff.mp h
      rw [jsonSafeItems, jsonSafe_of_finite hx, jsonSafeItems_of_finite hxs]

theorem jsonSafeFields_of_finite : ∀ {d : JsonObject},
    nonFiniteFields d = 0 → jsonSafeFields d = d
  | [], _ => rfl
  | (_, x) :: d, h => by
      obtain ⟨hx, hd⟩ := Nat.add_eq_zero_iff.mp h
      rw [jsonSafeFields, jsonSafe_of_finite hx, jsonSafeFields_of_finite hd]
end

/-- A value that was stored compares equal to itself exactly when it holds no NaN and no
infinity: the sanitiser leaves none of them, and the comparison sees each. -/
theorem canonicalJson_stored_iff {v : Json} (hkeys : v.UniqueKeys) :
    canonicalJson (k.readBack (jsonSafe v)) = canonicalJson v ↔ v.nonFinite = 0 := by
  constructor
  · intro h
    calc v.nonFinite = (canonicalJson v).nonFinite := (nonFinite_canonicalJson v).symm
      _ = (canonicalJson (k.readBack (jsonSafe v))).nonFinite := by rw [h]
      _ = 0 := by simp
  · intro h
    rw [jsonSafe_of_finite h, canonicalJson_readBack k hkeys]

end Finite

end Pitwall
