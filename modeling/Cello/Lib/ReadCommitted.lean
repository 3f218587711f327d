import Mathlib.Data.List.Basic

/-!
# Transactions under READ COMMITTED

A statement sees what is committed when it runs, and what its own transaction has written.  A statement that writes a
row waits while another open transaction has written it.  A commit puts all writes of a transaction in the store;
however else a transaction ends, the store is as it was.

What a transaction has done when it can commit is worked out from its statements alone (`Txn.Ensures`), and holds of
every commit of every run (`Sound.commit`).  A row that no transaction writes over stays (`Sound.stays`).
-/

namespace Lib.ReadCommitted

variable {κ : Type} {ν : κ → Type} {ε α β ι : Type}

/-- The rows that are there, by their keys. -/
abbrev Store (ν : κ → Type) := ∀ k, Option (ν k)

/-- A transaction, up to its commit or its failure. -/
inductive Txn (ν : κ → Type) (ε α : Type) where
  | pure (a : α)
  | throw (e : ε)
  | select (k : κ) (next : Option (ν k) → Txn ν ε α)
  /-- Writes a row, or leaves it, as it finds it, and returns what it has written. -/
  | write (k : κ) (f : Option (ν k) → Option (ν k)) (next : Option (ν k) → Txn ν ε α)

namespace Txn

def bind : Txn ν ε α → (α → Txn ν ε β) → Txn ν ε β
  | pure a, g => g a
  | throw e, _ => throw e
  | select k next, g => select k fun v => (next v).bind g
  | write k f next, g => write k f fun v => (next v).bind g

instance : Monad (Txn ν ε) where
  pure := pure
  bind := bind

/-- `INSERT .. ON CONFLICT DO NOTHING RETURNING ..`. -/
def insert (k : κ) (row : ν k) : Txn ν ε (Option (ν k)) :=
  write k (fun found => if found.isSome then none else some row) pure

/-- `UPDATE .. WHERE .. RETURNING ..`, of the row of a key. -/
def update (k : κ) (f : ν k → Option (ν k)) : Txn ν ε (Option (ν k)) := write k (fun found => found.bind f) pure

def find (k : κ) : Txn ν ε (Option (ν k)) := select k pure

end Txn

/-! ### Writes -/

/-- A row that was written, with what it was written over. -/
structure Write (ν : κ → Type) where
  key : κ
  old : Option (ν key)
  new : ν key

section

variable [DecidableEq κ]

def put (db : Store ν) (w : Write ν) : Store ν := Function.update db w.key (some w.new)

def apply (db : Store ν) (ws : List (Write ν)) : Store ν := ws.foldl put db

def Exact : Store ν → List (Write ν) → Prop
  | _, [] => True
  | db, w :: ws => db w.key = w.old ∧ Exact (put db w) ws

theorem put_of_ne (db : Store ν) {w : Write ν} {k : κ} (h : w.key ≠ k) : put db w k = db k :=
  Function.update_of_ne h.symm _ _

theorem apply_append (db : Store ν) (ws : List (Write ν)) (w : Write ν) :
    apply db (ws ++ [w]) = put (apply db ws) w := by
  rw [apply, List.foldl_append]
  rfl

theorem apply_of_not_mem {ws : List (Write ν)} {k : κ} (h : ∀ w ∈ ws, w.key ≠ k) (db : Store ν) :
    apply db ws k = db k := by
  induction ws generalizing db with
  | nil => rfl
  | cons w ws ih =>
    have hrest := ih (fun w hw => h w (List.mem_cons_of_mem _ hw)) (put db w)
    exact hrest.trans (put_of_ne db (h w List.mem_cons_self))

theorem apply_congr {db db' : Store ν} {k : κ} (h : db k = db' k) (ws : List (Write ν)) :
    apply db ws k = apply db' ws k := by
  induction ws generalizing db db' with
  | nil => exact h
  | cons w ws ih =>
    have hput : put db w k = put db' w k := by
      by_cases hk : w.key = k
      · subst hk
        rw [put, put, Function.update_self, Function.update_self]
      · rw [put_of_ne db hk, put_of_ne db' hk, h]
    exact ih hput

theorem exact_append {db : Store ν} {ws : List (Write ν)} {w : Write ν} (h : Exact db ws)
    (hw : apply db ws w.key = w.old) : Exact db (ws ++ [w]) := by
  induction ws generalizing db with
  | nil => exact ⟨hw, trivial⟩
  | cons w' ws ih => exact ⟨h.1, ih h.2 hw⟩

theorem exact_congr {db db' : Store ν} {ws : List (Write ν)} (hkeys : ∀ w ∈ ws, db w.key = db' w.key)
    (h : Exact db ws) : Exact db' ws := by
  induction ws generalizing db db' with
  | nil => trivial
  | cons w ws ih =>
    refine ⟨(hkeys w List.mem_cons_self).symm.trans h.1, ih (fun w' hw' => ?_) h.2⟩
    exact apply_congr (hkeys w' (List.mem_cons_of_mem _ hw')) [w]

theorem apply_of_final {final : ∀ k, ν k → Prop} {db : Store ν} {ws : List (Write ν)} {k : κ} {v : ν k}
    (hexact : Exact db ws) (hkeeps : ∀ w ∈ ws, ∀ v, w.old = some v → ¬ final w.key v) (hfinal : final k v)
    (hv : db k = some v) : apply db ws k = some v := by
  induction ws generalizing db with
  | nil => exact hv
  | cons w ws ih =>
    have hne : w.key ≠ k := by
      rintro rfl
      exact hkeeps w List.mem_cons_self v (hexact.1.symm.trans hv) hfinal
    exact ih hexact.2 (fun w hw => hkeeps w (List.mem_cons_of_mem _ hw)) ((put_of_ne db hne).trans hv)

end

/-! ### Runs -/

/-- An open transaction; what it has seen is kept for the proofs. -/
structure Open (ν : κ → Type) (ε α : Type) where
  writes : List (Write ν)
  seen : List (Σ k, Option (ν k))
  rest : Txn ν ε α

structure Server (ν : κ → Type) (ε α ι : Type) where
  db : Store ν
  opened : ι → Option (Open ν ε α)

/-- What a step was, as far as its caller knows. -/
inductive Label (ε α ι : Type) where
  | runs (i : ι)
  | commits (i : ι) (a : α)
  | refuses (i : ι) (e : ε)
  | breaksOff (i : ι)

section

variable [DecidableEq κ] [DecidableEq ι]

def Server.set (s : Server ν ε α ι) (i : ι) (o : Option (Open ν ε α)) : Server ν ε α ι :=
  { s with opened := Function.update s.opened i o }

def Free (s : Server ν ε α ι) (i : ι) (k : κ) : Prop :=
  ∀ j o, j ≠ i → s.opened j = some o → ∀ w ∈ o.writes, w.key ≠ k

/-- One statement, or the end, of one transaction. -/
inductive Step (program : ι → Txn ν ε α) (s : Server ν ε α ι) : Label ε α ι → Server ν ε α ι → Prop
  | begins {i : ι} (hnew : s.opened i = none) : Step program s (.runs i) (s.set i (some ⟨[], [], program i⟩))
  | selects {i : ι} {ws seen k next} (ho : s.opened i = some ⟨ws, seen, .select k next⟩) :
      Step program s (.runs i)
        (s.set i (some ⟨ws, seen ++ [⟨k, apply s.db ws k⟩], next (apply s.db ws k)⟩))
  | leaves {i : ι} {ws seen k f next} (ho : s.opened i = some ⟨ws, seen, .write k f next⟩)
      (hf : f (apply s.db ws k) = none) : Step program s (.runs i) (s.set i (some ⟨ws, seen, next none⟩))
  | writes {i : ι} {ws seen k f next new} (ho : s.opened i = some ⟨ws, seen, .write k f next⟩) (hfree : Free s i k)
      (hf : f (apply s.db ws k) = some new) :
      Step program s (.runs i) (s.set i (some ⟨ws ++ [⟨k, apply s.db ws k, new⟩], seen, next (some new)⟩))
  | commits {i : ι} {ws seen a} (ho : s.opened i = some ⟨ws, seen, .pure a⟩) :
      Step program s (.commits i a) { s.set i none with db := apply s.db ws }
  | refuses {i : ι} {ws seen e} (ho : s.opened i = some ⟨ws, seen, .throw e⟩) :
      Step program s (.refuses i e) (s.set i none)
  | breaksOff {i : ι} : Step program s (.breaksOff i) (s.set i none)

/-- The servers that are reached from a store with no transaction open. -/
inductive Reaches (program : ι → Txn ν ε α) (s : Server ν ε α ι) : Server ν ε α ι → Prop
  | refl : Reaches program s s
  | step {s' s'' : Server ν ε α ι} {l : Label ε α ι} (hreach : Reaches program s s')
      (hstep : Step program s' l s'') : Reaches program s s''

theorem Reaches.trans {program : ι → Txn ν ε α} {s s' s'' : Server ν ε α ι} (h : Reaches program s s')
    (h' : Reaches program s' s'') : Reaches program s s'' := by
  induction h' with
  | refl => exact h
  | step _ hstep ih => exact ih.step hstep

theorem db_of_step {program : ι → Txn ν ε α} {s s' : Server ν ε α ι} {l : Label ε α ι} (h : Step program s l s')
    (hl : ∀ i a, l ≠ .commits i a) : s'.db = s.db := by
  cases h with
  | commits _ => exact absurd rfl (hl _ _)
  | _ => rfl

end

/-! ### What a transaction ensures -/

/-- Whatever its statements find, every write is one of `W`, and `Q` holds when it can commit. -/
def Txn.Ensures (W : Write ν → Prop) (Q : List (Write ν) → List (Σ k, Option (ν k)) → α → Prop) :
    List (Write ν) → List (Σ k, Option (ν k)) → Txn ν ε α → Prop
  | ws, seen, .pure a => Q ws seen a
  | _, _, .throw _ => True
  | ws, seen, .select k next => ∀ v, Ensures W Q ws (seen ++ [⟨k, v⟩]) (next v)
  | ws, seen, .write k f next => ∀ v, (f v = none → Ensures W Q ws seen (next none)) ∧
      ∀ new, f v = some new → W ⟨k, v, new⟩ ∧ Ensures W Q (ws ++ [⟨k, v, new⟩]) seen (next (some new))

theorem Txn.Ensures.bind {W : Write ν → Prop} {Q : List (Write ν) → List (Σ k, Option (ν k)) → β → Prop}
    {g : α → Txn ν ε β} : ∀ {p : Txn ν ε α} {ws seen},
      p.Ensures W (fun ws seen a => (g a).Ensures W Q ws seen) ws seen → (p.bind g).Ensures W Q ws seen
  | .pure _, _, _, h => h
  | .throw _, _, _, _ => trivial
  | .select _ _, _, _, h => fun v => Ensures.bind (h v)
  | .write _ _ _, _, _, h => fun v =>
      ⟨fun hf => Ensures.bind ((h v).1 hf), fun new hf => ⟨((h v).2 new hf).1, Ensures.bind ((h v).2 new hf).2⟩⟩

theorem Txn.Ensures.ite {W : Write ν → Prop} {Q : List (Write ν) → List (Σ k, Option (ν k)) → α → Prop} {c : Prop}
    [Decidable c] {p q : Txn ν ε α} {ws seen} (hp : c → p.Ensures W Q ws seen) (hq : ¬ c → q.Ensures W Q ws seen) :
    (if c then p else q).Ensures W Q ws seen := by
  by_cases h : c
  · rw [if_pos h]
    exact hp h
  · rw [if_neg h]
    exact hq h

section

variable [DecidableEq κ] [DecidableEq ι] {W : Write ν → Prop} {final : ∀ k, ν k → Prop}
  {Q : ι → List (Write ν) → List (Σ k, Option (ν k)) → α → Prop} {program : ι → Txn ν ε α}

/-- What holds of one open transaction. -/
structure Sane (W : Write ν → Prop) (final : ∀ k, ν k → Prop) (Q : List (Write ν) → List (Σ k, Option (ν k)) → α → Prop)
    (db : Store ν) (o : Open ν ε α) : Prop where
  exact : Exact db o.writes
  kept : ∀ w ∈ o.writes, W w
  seen : ∀ k v, ⟨k, some v⟩ ∈ o.seen → final k v → apply db o.writes k = some v
  ensures : o.rest.Ensures W Q o.writes o.seen

/-- What holds in every run: no two open transactions have written the same row. -/
structure Sound (W : Write ν → Prop) (final : ∀ k, ν k → Prop)
    (Q : ι → List (Write ν) → List (Σ k, Option (ν k)) → α → Prop) (s : Server ν ε α ι) : Prop where
  apart : ∀ i o, s.opened i = some o → ∀ w ∈ o.writes, Free s i w.key
  sane : ∀ i o, s.opened i = some o → Sane W final (Q i) s.db o

omit [DecidableEq κ] in
theorem Server.opened_set_self (s : Server ν ε α ι) (i : ι) (o : Option (Open ν ε α)) : (s.set i o).opened i = o :=
  Function.update_self _ _ _

omit [DecidableEq κ] in
theorem Server.opened_set_of_ne (s : Server ν ε α ι) {i j : ι} (h : j ≠ i) (o : Option (Open ν ε α)) :
    (s.set i o).opened j = s.opened j :=
  Function.update_of_ne h _ _

variable {s s' : Server ν ε α ι}

theorem Sound.set (h : Sound W final Q s) {i : ι} {o : Open ν ε α} (hfree : ∀ w ∈ o.writes, Free s i w.key)
    (hsane : Sane W final (Q i) s.db o) : Sound W final Q (s.set i (some o)) := by
  refine ⟨?_, ?_⟩
  · intro j p hp w hw j' p' hne hp' w' hw'
    by_cases hj : j = i
    · subst hj
      rw [s.opened_set_self] at hp
      rw [s.opened_set_of_ne hne] at hp'
      cases hp
      exact hfree w hw j' p' hne hp' w' hw'
    rw [s.opened_set_of_ne hj] at hp
    by_cases hj' : j' = i
    · subst hj'
      rw [s.opened_set_self] at hp'
      cases hp'
      exact (hfree w' hw' j p hj hp w hw).symm
    · rw [s.opened_set_of_ne hj'] at hp'
      exact h.apart j p hp w hw j' p' hne hp' w' hw'
  · intro j p hp
    by_cases hj : j = i
    · subst hj
      rw [s.opened_set_self] at hp
      cases hp
      exact hsane
    · rw [s.opened_set_of_ne hj] at hp
      exact h.sane j p hp

theorem Sound.clear (h : Sound W final Q s) (i : ι) : Sound W final Q (s.set i none) := by
  have hopen : ∀ j p, (s.set i none).opened j = some p → s.opened j = some p := by
    intro j p hp
    by_cases hj : j = i
    · subst hj
      rw [s.opened_set_self] at hp
      cases hp
    · rwa [s.opened_set_of_ne hj] at hp
  exact ⟨fun j p hp w hw j' p' hne hp' => h.apart j p (hopen j p hp) w hw j' p' hne (hopen j' p' hp'),
    fun j p hp => h.sane j p (hopen j p hp)⟩

/-- No write of `W` is over a row that is final. -/
def KeepsFinal (W : Write ν → Prop) (final : ∀ k, ν k → Prop) : Prop :=
  ∀ w, W w → ∀ v, w.old = some v → ¬ final w.key v

theorem Sane.commit (hkeeps : KeepsFinal W final) {R R' : List (Write ν) → List (Σ k, Option (ν k)) → α → Prop}
    {db : Store ν} {o p : Open ν ε α} (ho : Sane W final R db o) (hp : Sane W final R' db p)
    (hapart : ∀ w ∈ o.writes, ∀ w' ∈ p.writes, w'.key ≠ w.key) : Sane W final R' (apply db o.writes) p := by
  refine ⟨?_, hp.kept, ?_, hp.ensures⟩
  · refine exact_congr (fun w hw => ?_) hp.exact
    exact (apply_of_not_mem (fun w' hw' => (hapart w' hw' w hw).symm) db).symm
  · intro k v hmem hk
    have hv := hp.seen k v hmem hk
    by_cases hwritten : ∃ w ∈ p.writes, w.key = k
    · obtain ⟨w, hw, rfl⟩ := hwritten
      rw [apply_congr (apply_of_not_mem (fun w' hw' => (hapart w' hw' w hw).symm) db)]
      exact hv
    · have hnot : ∀ w ∈ p.writes, w.key ≠ k := fun w hw hwk => hwritten ⟨w, hw, hwk⟩
      rw [apply_of_not_mem hnot] at hv ⊢
      exact apply_of_final ho.exact (fun w hw => hkeeps w (ho.kept w hw)) hk hv

/-- **A step keeps what holds in every run.** -/
theorem Sound.step (hkeeps : KeepsFinal W final) (hprogram : ∀ i, (program i).Ensures W (Q i) [] [])
    (h : Sound W final Q s) {l : Label ε α ι} (hstep : Step program s l s') : Sound W final Q s' := by
  cases hstep with
  | begins _ =>
    refine h.set ?_ ⟨trivial, ?_, ?_, hprogram _⟩
    · intro w hw
      cases hw
    · intro w hw
      cases hw
    · intro k v hmem
      cases hmem
  | selects ho =>
    have hsane := h.sane _ _ ho
    have hfree := h.apart _ _ ho
    refine h.set hfree ⟨hsane.exact, hsane.kept, ?_, hsane.ensures _⟩
    intro k v hmem hk
    rcases List.mem_append.1 hmem with hmem | hmem
    · exact hsane.seen k v hmem hk
    · obtain ⟨rfl, hv⟩ := Sigma.mk.inj (List.mem_singleton.1 hmem)
      exact (eq_of_heq hv).symm
  | leaves ho hf =>
    have hsane := h.sane _ _ ho
    have hfree := h.apart _ _ ho
    exact h.set hfree ⟨hsane.exact, hsane.kept, hsane.seen, (hsane.ensures _).1 hf⟩
  | @writes i ws seen k f next new ho hfree hf =>
    have hsane := h.sane _ _ ho
    obtain ⟨hkept, hensures⟩ := (hsane.ensures _).2 new hf
    refine h.set ?_ ⟨exact_append hsane.exact rfl, ?_, ?_, hensures⟩
    · intro w hw
      rcases List.mem_append.1 hw with hw | hw
      · exact h.apart _ _ ho w hw
      · cases List.mem_singleton.1 hw
        exact hfree
    · intro w hw
      rcases List.mem_append.1 hw with hw | hw
      · exact hsane.kept w hw
      · cases List.mem_singleton.1 hw
        exact hkept
    · intro k' v hmem hk
      have hv := hsane.seen k' v hmem hk
      rw [apply_append, put_of_ne]
      · exact hv
      · rintro rfl
        exact hkeeps _ hkept v hv hk
  | @commits i ws seen a ho =>
    have hclear := h.clear i
    refine ⟨hclear.apart, ?_⟩
    intro j p hp
    have hji : j ≠ i := by
      rintro rfl
      rw [s.opened_set_self] at hp
      cases hp
    rw [s.opened_set_of_ne hji] at hp
    exact (h.sane i _ ho).commit hkeeps (h.sane j p hp) fun w hw w' hw' => h.apart i _ ho w hw j p hji hp w' hw'
  | refuses _ => exact h.clear _
  | breaksOff => exact h.clear _

theorem Reaches.sound (hkeeps : KeepsFinal W final) (hprogram : ∀ i, (program i).Ensures W (Q i) [] [])
    (hidle : ∀ i, s.opened i = none) (hreach : Reaches program s s') : Sound W final Q s' := by
  induction hreach with
  | refl =>
    refine ⟨?_, ?_⟩
    · intro i o ho
      rw [hidle i] at ho
      cases ho
    · intro i o ho
      rw [hidle i] at ho
      cases ho
  | step _ hstep ih => exact ih.step hkeeps hprogram hstep

theorem Sound.commit (h : Sound W final Q s) {i : ι} {a : α}
    (hstep : Step program s (.commits i a) s') :
    ∃ ws seen, Exact s.db ws ∧ s'.db = apply s.db ws ∧
      (∀ k v, ⟨k, some v⟩ ∈ seen → final k v → s'.db k = some v) ∧ Q i ws seen a := by
  cases hstep with
  | @commits _ ws seen _ ho =>
    have hsane := h.sane i _ ho
    exact ⟨ws, seen, hsane.exact, rfl, hsane.seen, hsane.ensures⟩

theorem Sound.stays (h : Sound W final Q s) (hkeeps : KeepsFinal W final) {l : Label ε α ι}
    (hstep : Step program s l s') {k : κ} {v : ν k} (hk : final k v) (hv : s.db k = some v) : s'.db k = some v := by
  cases hstep with
  | @commits i ws seen a ho =>
    have hsane := h.sane i _ ho
    exact apply_of_final hsane.exact (fun w hw => hkeeps w (hsane.kept w hw)) hk hv
  | _ => exact hv

theorem Reaches.stays (hkeeps : KeepsFinal W final) (hprogram : ∀ i, (program i).Ensures W (Q i) [] [])
    (h : Sound W final Q s) (hreach : Reaches program s s') {k : κ} {v : ν k} (hk : final k v)
    (hv : s.db k = some v) : s'.db k = some v := by
  have hkept : Sound W final Q s' ∧ s'.db k = some v := by
    induction hreach with
    | refl => exact ⟨h, hv⟩
    | step _ hstep ih => exact ⟨ih.1.step hkeeps hprogram hstep, ih.1.stays hkeeps hstep hk ih.2⟩
  exact hkept.2

end

end Lib.ReadCommitted
