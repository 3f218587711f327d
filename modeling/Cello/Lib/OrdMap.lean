import Mathlib.Data.List.Nodup

/-!
# Insertion-ordered finite maps

An `OrdMap κ ν` is a finite map that remembers the order in which its keys first
arrived, the way a JavaScript `Map` does: `set` on a known key replaces the
value in place, on a new key it appends at the end.  The entries carry the proof
that no key occurs twice, so `get` never has to choose.

The rules the clients use are `get_set` (what a write does to every key) and
`get_eq_some_iff` (a lookup is membership of the entry), together with
`get_ofList` for the map a loop of `set`s builds and `count_split` for counting entries.
-/

namespace Lib

/-- A finite map whose entries keep their insertion order. -/
structure OrdMap (κ ν : Type*) where
  entries : List (κ × ν)
  nodup : (entries.map Prod.fst).Nodup

namespace OrdMap

variable {κ ν : Type*} [DecidableEq κ]

/-- Replace the value at `k` in place, or append a new entry. -/
def setList (k : κ) (v : ν) : List (κ × ν) → List (κ × ν)
  | [] => [(k, v)]
  | e :: r => if e.1 = k then (k, v) :: r else e :: setList k v r

theorem mem_keys_setList (k : κ) (v : ν) : ∀ (l : List (κ × ν)) (x : κ),
    x ∈ (setList k v l).map Prod.fst ↔ x = k ∨ x ∈ l.map Prod.fst := by
  intro l
  induction l with
  | nil => intro x; simp [setList]
  | cons e r ih =>
    intro x
    by_cases he : e.1 = k
    · subst he; simp [setList]
    · rw [setList, if_neg he, List.map_cons, List.mem_cons, ih x, List.map_cons, List.mem_cons]
      tauto

theorem nodup_setList (k : κ) (v : ν) : ∀ l : List (κ × ν),
    (l.map Prod.fst).Nodup → ((setList k v l).map Prod.fst).Nodup := by
  intro l
  induction l with
  | nil => intro _; simp [setList]
  | cons e r ih =>
    intro h
    rw [List.map_cons, List.nodup_cons] at h
    by_cases he : e.1 = k
    · rw [setList, if_pos he, List.map_cons, List.nodup_cons, ← he]
      exact h
    · rw [setList, if_neg he, List.map_cons, List.nodup_cons, mem_keys_setList]
      exact ⟨fun hk => hk.elim he h.1, ih h.2⟩

/-- `new Map()`. -/
def empty : OrdMap κ ν := ⟨[], List.nodup_nil⟩

/-- `map.set(k, v)`. -/
def set (m : OrdMap κ ν) (k : κ) (v : ν) : OrdMap κ ν :=
  ⟨setList k v m.entries, nodup_setList k v _ m.nodup⟩

/-- The value of the first entry at `k`. -/
def getList (k : κ) : List (κ × ν) → Option ν
  | [] => none
  | e :: r => if e.1 = k then some e.2 else getList k r

/-- `map.get(k)`. -/
def get (m : OrdMap κ ν) (k : κ) : Option ν := getList k m.entries

/-- `map.has(k)`. -/
def has (m : OrdMap κ ν) (k : κ) : Bool := (m.get k).isSome

/-- The keys in insertion order. -/
def keys (m : OrdMap κ ν) : List κ := m.entries.map Prod.fst

/-- The map a loop of `set`s over `l` builds from the empty map. -/
def ofList (l : List (κ × ν)) : OrdMap κ ν := l.foldl (fun m e => m.set e.1 e.2) empty

/-! ### Reading after a write -/

theorem getList_setList (k : κ) (v : ν) (x : κ) : ∀ l : List (κ × ν),
    getList x (setList k v l) = if x = k then some v else getList x l := by
  intro l
  induction l with
  | nil =>
    by_cases hx : x = k
    · simp [setList, getList, hx]
    · simp [setList, getList, hx, Ne.symm hx]
  | cons e r ih =>
    by_cases he : e.1 = k
    · rw [setList, if_pos he, getList, getList]
      by_cases hx : x = k
      · simp [hx]
      · simp [hx, Ne.symm hx, he]
    · rw [setList, if_neg he, getList, ih, getList]
      by_cases hx : x = k
      · simp [hx, he]
      · simp [hx]

variable (m : OrdMap κ ν)

theorem get_set (k : κ) (v : ν) (x : κ) :
    (m.set k v).get x = if x = k then some v else m.get x :=
  getList_setList k v x m.entries

@[simp] theorem get_set_self (k : κ) (v : ν) : (m.set k v).get k = some v := by
  rw [get_set, if_pos rfl]

@[simp] theorem set_set (k : κ) (v w : ν) : (m.set k v).set k w = m.set k w := by
  have h : ∀ l : List (κ × ν), setList k w (setList k v l) = setList k w l := by
    intro l
    induction l with
    | nil => simp [setList]
    | cons e r ih =>
      by_cases he : e.1 = k
      · simp [setList, he]
      · simp [setList, he, ih]
  simp only [set, h]

theorem get_set_of_ne {k x : κ} (v : ν) (h : x ≠ k) :
    (m.set k v).get x = m.get x := by
  rw [get_set, if_neg h]

theorem setList_of_notMem {k : κ} (v : ν) : ∀ {l : List (κ × ν)}, k ∉ l.map Prod.fst →
    setList k v l = l ++ [(k, v)] := by
  intro l
  induction l with
  | nil => intro _; rfl
  | cons e r ih =>
    intro h
    rw [List.map_cons, List.mem_cons, not_or] at h
    rw [setList, if_neg (Ne.symm h.1), ih h.2, List.cons_append]

theorem entries_set_of_notMem {m : OrdMap κ ν} {k : κ} (v : ν) (h : k ∉ m.keys) :
    (m.set k v).entries = m.entries ++ [(k, v)] :=
  setList_of_notMem v h

theorem has_set (k : κ) (v : ν) (x : κ) :
    (m.set k v).has x = true ↔ x = k ∨ m.has x = true := by
  rw [has, has, get_set]
  by_cases h : x = k <;> simp [h]

@[simp] theorem get_empty (k : κ) : (empty : OrdMap κ ν).get k = none := rfl

/-! ### A lookup is membership of the entry -/

theorem getList_eq_some_iff (k : κ) (v : ν) : ∀ l : List (κ × ν), (l.map Prod.fst).Nodup →
    (getList k l = some v ↔ (k, v) ∈ l) := by
  intro l
  induction l with
  | nil => intro _; simp [getList]
  | cons e r ih =>
    intro h
    rw [List.map_cons, List.nodup_cons] at h
    obtain ⟨a, b⟩ := e
    by_cases he : a = k
    · subst he
      have hr : (a, v) ∉ r := fun hm => h.1 (List.mem_map.2 ⟨(a, v), hm, rfl⟩)
      simp [getList, hr, eq_comm]
    · rw [getList, if_neg he, ih h.2, List.mem_cons]
      simp [Ne.symm he]

theorem get_eq_some_iff (k : κ) (v : ν) :
    m.get k = some v ↔ (k, v) ∈ m.entries :=
  getList_eq_some_iff k v m.entries m.nodup

theorem mem_keys_iff {m : OrdMap κ ν} {k : κ} : k ∈ m.keys ↔ (m.get k).isSome = true := by
  rw [Option.isSome_iff_exists]
  constructor
  · intro h
    obtain ⟨e, he, rfl⟩ := List.mem_map.1 h
    exact ⟨e.2, (get_eq_some_iff m _ _).2 he⟩
  · rintro ⟨v, hv⟩
    exact List.mem_map_of_mem ((get_eq_some_iff m k v).1 hv)

/-! ### The map a loop of writes builds -/

def Consistent (l : List (κ × ν)) : Prop :=
  ∀ a ∈ l, ∀ b ∈ l, a.1 = b.1 → a.2 = b.2

theorem get_foldl_set (x : κ) (v : ν) : ∀ (l : List (κ × ν)) (m : OrdMap κ ν),
    (∀ b ∈ l, b.1 = x → b.2 = v) →
    ((l.foldl (fun m e => m.set e.1 e.2) m).get x = some v ↔ (x, v) ∈ l ∨ m.get x = some v) := by
  intro l
  induction l with
  | nil => intro m _; simp
  | cons e r ih =>
    intro m hl
    obtain ⟨a, b⟩ := e
    rw [List.foldl_cons, ih _ (fun c hc => hl c (List.mem_cons_of_mem _ hc)), get_set,
      List.mem_cons]
    by_cases hx : x = a
    · subst hx
      have hb : b = v := hl (x, b) (by simp) rfl
      simp [hb]
    · simp [hx]

theorem isSome_foldl_set (x : κ) : ∀ (l : List (κ × ν)) (m : OrdMap κ ν),
    ((l.foldl (fun m e => m.set e.1 e.2) m).get x).isSome = true ↔
      x ∈ l.map Prod.fst ∨ (m.get x).isSome = true := by
  intro l
  induction l with
  | nil => intro m; simp
  | cons e r ih =>
    intro m
    rw [List.foldl_cons, ih, get_set, List.map_cons, List.mem_cons]
    by_cases hx : x = e.1
    · simp [hx]
    · simp [hx]

theorem has_ofList (l : List (κ × ν)) (x : κ) :
    (ofList l).has x = true ↔ x ∈ l.map Prod.fst := by
  rw [has, ofList, isSome_foldl_set]
  simp

theorem get_ofList {l : List (κ × ν)} (h : Consistent l) {x : κ} {v : ν} (hx : (x, v) ∈ l) :
    (ofList l).get x = some v := by
  rw [ofList, get_foldl_set x v l empty (fun b hb hk => h b hb (x, v) hx hk)]
  exact Or.inl hx

/-! ### A map given by a function -/

/-- The map a loop writes that sets each key to its value under `f`. -/
def tabulate (f : κ → ν) (keys : List κ) (m : OrdMap κ ν) : OrdMap κ ν :=
  keys.foldl (fun m k => m.set k (f k)) m

theorem get_tabulate (f : κ → ν) (x : κ) : ∀ (keys : List κ) (m : OrdMap κ ν),
    (tabulate f keys m).get x = if x ∈ keys then some (f x) else m.get x := by
  intro keys
  induction keys with
  | nil => intro m; simp [tabulate]
  | cons k r ih =>
    intro m
    rw [tabulate, List.foldl_cons, ← tabulate, ih, get_set]
    by_cases hx : x = k
    · subst hx
      simp
    · simp [hx]

theorem mem_entries_tabulate {f : κ → ν} {keys : List κ} {e : κ × ν}
    (h : e ∈ (tabulate f keys empty).entries) : e.1 ∈ keys ∧ e.2 = f e.1 := by
  have hg := (get_eq_some_iff _ e.1 e.2).2 h
  rw [get_tabulate] at hg
  split_ifs at hg with hk
  · exact ⟨hk, (Option.some.inj hg).symm⟩
  · cases hg

theorem mem_keys_tabulate {f : κ → ν} {keys : List κ} {k : κ} :
    k ∈ (tabulate f keys empty).entries.map Prod.fst ↔ k ∈ keys := by
  constructor
  · intro h
    obtain ⟨e, he, rfl⟩ := List.mem_map.1 h
    exact (mem_entries_tabulate he).1
  · intro h
    have hg : (tabulate f keys empty).get k = some (f k) := by rw [get_tabulate, if_pos h]
    exact List.mem_map.2 ⟨(k, f k), (get_eq_some_iff _ _ _).1 hg, rfl⟩

/-! ### Removal -/

/-- `map.delete(k)`. -/
def erase (m : OrdMap κ ν) (k : κ) : OrdMap κ ν where
  entries := m.entries.filter fun e => decide (e.1 ≠ k)
  nodup := (List.filter_sublist.map Prod.fst).nodup m.nodup

theorem get_erase (k x : κ) :
    (m.erase k).get x = if x = k then none else m.get x := by
  ext v
  rw [get_eq_some_iff, erase, List.mem_filter]
  by_cases hx : x = k
  · simp [hx]
  · simp [hx, get_eq_some_iff]

@[simp] theorem get_erase_self (k : κ) : (m.erase k).get k = none := by
  rw [get_erase, if_pos rfl]

theorem get_erase_of_ne {k x : κ} (h : x ≠ k) : (m.erase k).get x = m.get x := by
  rw [get_erase, if_neg h]

@[simp] theorem erase_set (k : κ) (v : ν) : (m.set k v).erase k = m.erase k := by
  have h : ∀ l : List (κ × ν),
      (setList k v l).filter (fun e => decide (e.1 ≠ k)) = l.filter (fun e => decide (e.1 ≠ k)) := by
    intro l
    induction l with
    | nil => simp [setList]
    | cons e r ih =>
      by_cases he : e.1 = k
      · simp [setList, he]
      · rw [setList, if_neg he, List.filter_cons, List.filter_cons, ih]
  simp only [erase, set, h]

/-- Set to a value, or erased. -/
def update (m : OrdMap κ ν) (k : κ) : Option ν → OrdMap κ ν
  | some v => m.set k v
  | none => m.erase k

theorem get_update (k x : κ) (v : Option ν) :
    (m.update k v).get x = if x = k then v else m.get x := by
  cases v with
  | some v => exact get_set ..
  | none => exact get_erase ..

theorem has_erase (k x : κ) : (m.erase k).has x = true ↔ x ≠ k ∧ m.has x = true := by
  rw [has, has, get_erase]
  by_cases h : x = k <;> simp [h]

/-- The map without the keys that fail `p`. -/
def filter (m : OrdMap κ ν) (p : κ → ν → Bool) : OrdMap κ ν where
  entries := m.entries.filter fun e => p e.1 e.2
  nodup := (List.filter_sublist.map Prod.fst).nodup m.nodup

theorem get_filter (p : κ → ν → Bool) {x : κ} {v : ν} :
    (m.filter p).get x = some v ↔ m.get x = some v ∧ p x v = true := by
  rw [get_eq_some_iff, get_eq_some_iff, filter, List.mem_filter]

/-! ### Counting entries -/

/-- How many entries satisfy `p`. -/
def count (m : OrdMap κ ν) (p : κ → ν → Bool) : ℕ := m.entries.countP fun e => p e.1 e.2

theorem count_eq_length {p : κ → ν → Bool} {l : List κ} (hl : l.Nodup)
    (h : ∀ k, k ∈ l ↔ ∃ v, m.get k = some v ∧ p k v = true) : m.count p = l.length := by
  have hkeys : ((m.entries.filter fun e => p e.1 e.2).map Prod.fst).Perm l := by
    refine (List.perm_ext_iff_of_nodup ((List.filter_sublist.map Prod.fst).nodup m.nodup) hl).2 ?_
    intro k
    rw [h k, List.mem_map]
    constructor
    · rintro ⟨e, he, rfl⟩
      obtain ⟨hmem, hp⟩ := List.mem_filter.1 he
      exact ⟨e.2, (get_eq_some_iff m _ _).2 hmem, hp⟩
    · rintro ⟨v, hget, hp⟩
      exact ⟨(k, v), List.mem_filter.2 ⟨(get_eq_some_iff m _ _).1 hget, hp⟩, rfl⟩
  rw [count, List.countP_eq_length_filter, ← hkeys.length_eq, List.length_map]

theorem count_erase_le (k : κ) (p : κ → ν → Bool) :
    (m.erase k).count p ≤ m.count p :=
  List.filter_sublist.countP_le

theorem countP_setList (k : κ) (v : ν) (p : κ × ν → Bool) (hp : ∀ w, p (k, w) = false) :
    ∀ l : List (κ × ν), (setList k v l).countP p = l.countP p := by
  intro l
  induction l with
  | nil => simp [setList, hp]
  | cons e r ih =>
    obtain ⟨a, b⟩ := e
    by_cases ha : a = k
    · subst ha
      simp [setList, hp]
    · rw [setList, if_neg ha, List.countP_cons, List.countP_cons, ih]

theorem count_set_of_not (k : κ) (v : ν) {p : κ → ν → Bool} (hp : ∀ w, p k w = false) :
    (m.set k v).count p = m.count p :=
  countP_setList k v (fun e => p e.1 e.2) hp m.entries

theorem countP_split (k : κ) (p : κ × ν → Bool) : ∀ l : List (κ × ν), (l.map Prod.fst).Nodup →
    l.countP p = l.countP (fun e => decide (e.1 ≠ k) && p e) +
      if (getList k l).any (fun v => p (k, v)) then 1 else 0 := by
  intro l
  induction l with
  | nil => intro _; simp [getList]
  | cons e r ih =>
    intro h
    rw [List.map_cons, List.nodup_cons] at h
    obtain ⟨a, b⟩ := e
    by_cases ha : a = k
    · subst ha
      -- no other entry has this key, so the rest counts alike
      have hrest : r.countP p = r.countP (fun e => decide (e.1 ≠ a) && p e) := by
        refine List.countP_congr fun e he => ?_
        have hne : e.1 ≠ a := fun hea => h.1 (List.mem_map.2 ⟨e, he, hea⟩)
        simp [hne]
      rw [List.countP_cons, List.countP_cons, hrest]
      simp [getList]
    · rw [List.countP_cons, List.countP_cons, ih h.2, getList, if_neg ha]
      simp only [ne_eq, ha, not_false_eq_true, decide_true, Bool.true_and]
      omega

theorem count_split (k : κ) (p : κ → ν → Bool) :
    m.count p = m.count (fun x v => decide (x ≠ k) && p x v) +
      if (m.get k).any (p k) then 1 else 0 :=
  countP_split k (fun e => p e.1 e.2) m.entries m.nodup

/-- The map with every value sent through `f`. -/
def mapValues {μ : Type*} (f : ν → μ) (m : OrdMap κ ν) : OrdMap κ μ where
  entries := m.entries.map fun e => (e.1, f e.2)
  nodup := by simpa [List.map_map, Function.comp_def] using m.nodup

@[simp] theorem get_mapValues {μ : Type*} (f : ν → μ) (k : κ) :
    (m.mapValues f).get k = (m.get k).map f := by
  ext w
  rw [get_eq_some_iff, Option.map_eq_some_iff]
  simp only [mapValues, List.mem_map, Prod.mk.injEq]
  constructor
  · rintro ⟨e, he, rfl, rfl⟩
    exact ⟨e.2, (get_eq_some_iff m _ _).2 he, rfl⟩
  · rintro ⟨v, hv, rfl⟩
    exact ⟨(k, v), (get_eq_some_iff m _ _).1 hv, rfl, rfl⟩

theorem setList_map {μ : Type*} (f : ν → μ) (k : κ) (v : ν) : ∀ l : List (κ × ν),
    (setList k v l).map (fun e => (e.1, f e.2)) = setList k (f v) (l.map fun e => (e.1, f e.2)) := by
  intro l
  induction l with
  | nil => rfl
  | cons e rest ih =>
    simp only [setList, List.map_cons]
    split_ifs
    · rfl
    · rw [List.map_cons, ih]

theorem mapValues_set {μ : Type*} (f : ν → μ) (k : κ) (v : ν) :
    (m.set k v).mapValues f = (m.mapValues f).set k (f v) := by
  simp only [mapValues, set, setList_map]

/-- The map with every value sent through `f` of its key. -/
def mapWithKey (f : κ → ν → ν) (m : OrdMap κ ν) : OrdMap κ ν where
  entries := m.entries.map fun e => (e.1, f e.1 e.2)
  nodup := by simpa [List.map_map, Function.comp_def] using m.nodup

theorem get_mapWithKey (f : κ → ν → ν) (k : κ) :
    (m.mapWithKey f).get k = (m.get k).map (f k) := by
  ext w
  rw [get_eq_some_iff, Option.map_eq_some_iff]
  simp only [mapWithKey, List.mem_map, Prod.mk.injEq]
  constructor
  · rintro ⟨e, he, rfl, rfl⟩
    exact ⟨e.2, (get_eq_some_iff m _ _).2 he, rfl⟩
  · rintro ⟨v, hv, rfl⟩
    exact ⟨(k, v), (get_eq_some_iff m _ _).1 hv, rfl, rfl⟩

end OrdMap

end Lib
