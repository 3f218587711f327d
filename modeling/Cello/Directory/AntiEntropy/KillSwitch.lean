import Cello.Directory.AntiEntropy.TierB

/-!
# The kill switch over whole runs

`applyRevocationFlag` of `packages/directory/src/agent-write-repository.ts` together with
the Tier-B applies, for any number of nodes in any interleaving.  A node's row is modelled
as the list of its versions, newest first, because a peer may be handed any of them, past
or current.

Each version carries the records it has absorbed: those written to the row or merged into
it, directly or inside a merged record.  No code reads that list; it is what the safety
statement is about.  The invariant is that nothing a row has absorbed is newer than the row
(`Sound`).
-/

namespace Cello.Directory.AntiEntropy

open Lib

inductive RevocationMode where
  | pause
  | clear
  | burn
deriving DecidableEq, Repr

inductive RevocationOutcome where
  | applied
  | burnedImmutable
deriving DecidableEq, Repr

/-- `suspension_seq + 1` in the database. -/
def Bigint.succ (n : Bigint) : Except AeError Bigint := Bigint.ofInt (n.val + 1)

/-- One `applyRevocationFlag`: the row after it, and what the caller is told.  A clear touches
only a row that is not burned.  The account is one that the caller has found in a `UUID` column. -/
def applyRevocationFlag (row : Option SuspensionRow) (mode : RevocationMode)
    (accountId : ChainStore.Uuid) (originNode : String) :
    Except AeError (Option SuspensionRow × RevocationOutcome) :=
  match mode, row with
  | .clear, none => .ok (none, .applied)
  | .clear, some r =>
    if r.burned then .ok (some r, .burnedImmutable)
    else
      r.suspensionSeq.succ.map fun seq =>
        (some { r with paused := false, suspensionSeq := seq, originNode := some originNode },
          .applied)
  | mode, none =>
    .ok (some
      { paused := true
        burned := decide (mode = .burn)
        reason := none
        authorizedByAccount := accountId
        suspensionSeq := ⟨1, by decide, by decide⟩
        originNode := some originNode }, .applied)
  | mode, some r =>
    r.suspensionSeq.succ.map fun seq =>
      (some
        { r with
          paused := true
          burned := r.burned || decide (mode = .burn)
          authorizedByAccount := accountId
          suspensionSeq := seq
          originNode := some originNode }, .applied)

/-! ### Runs -/

/-- A row as it stood at some time, with the records it had absorbed by then. -/
structure Version where
  row : SuspensionRow
  absorbed : List SuspensionRecord

/-- Every node's versions of every agent's row, newest first. -/
abbrev World (ι : Type) := ι → String → List Version

section

variable {ι : Type}

/-- The world in which each node holds the given rows. -/
def World.start (rows : ι → String → Option SuspensionRow) : World ι := fun i a =>
  (rows i a).toList.map fun row => ⟨row, [row.toBody a]⟩

/-- The row a node holds. -/
def World.row (w : World ι) (i : ι) (a : String) : Option SuspensionRow :=
  ((w i a).head?).map Version.row

/-- The records a node's row has absorbed. -/
def World.absorbed (w : World ι) (i : ι) (a : String) : List SuspensionRecord :=
  ((w i a).head?).elim [] Version.absorbed

/-- The body a node serves for the version of a row that is `age` changes old. -/
def World.served (w : World ι) (i : ι) (a : String) (age : ℕ) : Option SuspensionRecord :=
  ((w i a)[age]?).map fun v => v.row.toBody a

/-- A local write, or the apply of a version of a peer's row. -/
inductive Event (ι : Type) where
  | write (node : ι) (agentId : String) (mode : RevocationMode) (accountId : ChainStore.Uuid)
    (originNode : String)
  | apply (node peer : ι) (agentId : String) (age : ℕ)

variable [DecidableEq ι] (nfc : Nfc) (sha : Sha256)

def World.push (w : World ι) (i : ι) (a : String) (v : Version) : World ι :=
  Function.update w i (Function.update (w i) a (v :: w i a))

/-- The result of applying a peer's version to a node's row. -/
def World.applied (w : World ι) (i : ι) (a : String) (body : SuspensionRecord) :
    Except AeError (Applied SuspensionRow) :=
  applyOneTierB (suspensions nfc sha) (w.row i a) ⟨a, body⟩

/-- One event.  A write or an apply that the database refuses changes nothing. -/
def World.step (w : World ι) : Event ι → World ι
  | .write i a mode account origin =>
    match applyRevocationFlag (w.row i a) mode account origin with
    | .ok (some row, _) => w.push i a ⟨row, row.toBody a :: w.absorbed i a⟩
    | _ => w
  | .apply i j a age =>
    match (w j a)[age]? with
    | none => w
    | some v =>
      match w.applied nfc sha i a (v.row.toBody a) with
      | .ok one => w.push i a ⟨one.row, one.row.toBody a :: (v.absorbed ++ w.absorbed i a)⟩
      | .error _ => w

def World.run (w : World ι) (es : List (Event ι)) : World ι := es.foldl (World.step nfc sha) w

/-- The version texts an event hashes: the local row's and the merged one's. -/
def World.versionTexts (w : World ι) : Event ι → List String
  | .write .. => []
  | .apply i j a age =>
    match w.row i a, w.served j a age with
    | some row, some body =>
      [versionText nfc (mergeSuspension nfc sha (row.toBody a) body), versionText nfc (row.toBody a)]
    | _, _ => []

def World.runTexts (w : World ι) : List (Event ι) → List String
  | [] => []
  | e :: es => w.versionTexts nfc sha e ++ World.runTexts (w.step nfc sha e) es

/-- No two version texts of the run have one digest. -/
def CollisionFree (w : World ι) (es : List (Event ι)) : Prop :=
  Set.InjOn sha.hex {x | x ∈ w.runTexts nfc sha es}

end

section

variable {ι : Type} [DecidableEq ι] {nfc : Nfc} {sha : Sha256} {w : World ι}

/-! ### Reading a world after a push -/

theorem World.push_self (i : ι) (a : String) (v : Version) : (w.push i a v) i a = v :: w i a := by
  simp [World.push]

theorem World.push_of_ne {i j : ι} {a b : String} (v : Version) (h : (j, b) ≠ (i, a)) :
    (w.push i a v) j b = w j b := by
  by_cases hj : j = i
  · subst hj
    have hb : b ≠ a := fun hb => h (by rw [hb])
    simp [World.push, hb]
  · simp [World.push, hj]

theorem World.row_push_self (i : ι) (a : String) (v : Version) :
    (w.push i a v).row i a = some v.row := by
  rw [World.row, World.push_self]
  rfl

theorem World.row_push_of_ne {i j : ι} {a b : String} (v : Version) (h : (j, b) ≠ (i, a)) :
    (w.push i a v).row j b = w.row j b := by
  rw [World.row, World.push_of_ne v h, World.row]

/-! ### What a write does -/

theorem applyRevocationFlag_spec {row row' : SuspensionRow} {mode : RevocationMode}
    {account : ChainStore.Uuid} {origin : String} {out : RevocationOutcome}
    (h : applyRevocationFlag (some row) mode account origin = .ok (some row', out)) :
    row.suspensionSeq.val ≤ row'.suspensionSeq.val ∧
      (row.burned = true → row'.burned = true) := by
  have hsucc : ∀ {f : Bigint → SuspensionRow} {o : RevocationOutcome},
      (row.suspensionSeq.succ.map fun seq => (some (f seq), o)) = .ok (some row', out) →
      ∃ seq, seq.val = row.suspensionSeq.val + 1 ∧ f seq = row' := by
    intro f o hmap
    obtain ⟨seq, hs, he⟩ := exists_of_map_ok hmap
    exact ⟨seq, Bigint.val_of_ofInt hs, Option.some.inj (Prod.mk.inj he).1⟩
  cases mode with
  | clear =>
    simp only [applyRevocationFlag] at h
    split_ifs at h with hb
    · cases h
      exact ⟨le_refl _, id⟩
    · obtain ⟨seq, hs, rfl⟩ := hsucc h
      exact ⟨by simp only [hs]; omega, fun hb' => absurd hb' hb⟩
  | pause =>
    obtain ⟨seq, hs, rfl⟩ := hsucc h
    exact ⟨by simp only [hs]; omega, fun hb => by simp [hb]⟩
  | burn =>
    obtain ⟨seq, hs, rfl⟩ := hsucc h
    exact ⟨by simp only [hs]; omega, fun hb => by simp [hb]⟩

theorem applyRevocationFlag_paused {row : Option SuspensionRow} {row' : SuspensionRow}
    {mode : RevocationMode} {account : ChainStore.Uuid} {origin : String} {out : RevocationOutcome}
    (hmode : mode ≠ .clear)
    (h : applyRevocationFlag row mode account origin = .ok (some row', out)) :
    row'.paused = true := by
  cases mode with
  | clear => exact absurd rfl hmode
  | pause | burn =>
    cases row with
    | none => cases h; rfl
    | some r =>
      obtain ⟨seq, -, he⟩ := exists_of_map_ok h
      obtain rfl := Option.some.inj (Prod.mk.inj he).1
      rfl

/-! ### What an apply does -/

omit [DecidableEq ι] in
theorem applied_spec {i : ι} {a : String} {body : SuspensionRecord} {one : Applied SuspensionRow}
    (hfree : ∀ row, w.row i a = some row →
      sha.hex (versionText nfc (mergeSuspension nfc sha (row.toBody a) body)) =
        sha.hex (versionText nfc (row.toBody a)) →
      versionText nfc (mergeSuspension nfc sha (row.toBody a) body) =
        versionText nfc (row.toBody a))
    (h : w.applied nfc sha i a body = .ok one) :
    body.suspensionSeq ≤ Double.number one.row.suspensionSeq.val ∧
      (body.burned = true → one.row.burned = true) ∧
      ∀ row, w.row i a = some row →
        Double.number row.suspensionSeq.val ≤ Double.number one.row.suspensionSeq.val ∧
        (row.burned = true → one.row.burned = true) := by
  -- where a row exists, the row after is, in flags and number, the merge of the two
  have hmerged : ∀ row, w.row i a = some row →
      one.row.burned = (mergeSuspension nfc sha (row.toBody a) body).burned ∧
      Double.number one.row.suspensionSeq.val =
        (mergeSuspension nfc sha (row.toBody a) body).suspensionSeq := by
    intro row hrow
    obtain ⟨hn, -⟩ | ⟨r, hr, -, hone, hver⟩ | ⟨r, hr, -, hu⟩ := applyOne_cases h
    · rw [hrow] at hn
      cases hn
    · obtain rfl := Option.some.inj (hrow.symm.trans hr)
      have hs := versionText_eq_iff.1 (hfree row hrow hver)
      rw [hone]
      exact ⟨hs.burned.symm, hs.seq.symm⟩
    · obtain rfl := Option.some.inj (hrow.symm.trans hr)
      obtain ⟨-, hb, hs⟩ := SuspensionRow.ofBody_ok hu
      exact ⟨hb, hs⟩
  have hkeep : ∀ row, w.row i a = some row →
      Double.number row.suspensionSeq.val ≤ Double.number one.row.suspensionSeq.val ∧
      (row.burned = true → one.row.burned = true) := by
    intro row hrow
    obtain ⟨hb, hs⟩ := hmerged row hrow
    rw [hs, mergeSuspension_seq, hb, mergeSuspension_burned]
    exact ⟨le_max_left _ _, fun hb' => by rw [show (row.toBody a).burned = row.burned from rfl, hb',
      Bool.true_or]⟩
  cases hrow : w.row i a with
  | none =>
    obtain ⟨-, -, hi⟩ | ⟨r, hr, -⟩ | ⟨r, hr, -⟩ := applyOne_cases h
    · obtain ⟨-, hb, hs⟩ := SuspensionRow.ofBody_ok hi
      refine ⟨by rw [hs], fun hb' => by rw [hb, hb'], fun row hr => ?_⟩
      cases hr
    · rw [hrow] at hr
      cases hr
    · rw [hrow] at hr
      cases hr
  | some row =>
    obtain ⟨hb, hs⟩ := hmerged row hrow
    refine ⟨?_, ?_, fun r hr => hkeep r (hrow.trans hr)⟩
    · rw [hs, mergeSuspension_seq]
      exact le_max_right _ _
    · intro hb'
      rw [hb, mergeSuspension_burned, hb', Bool.or_true]

omit [DecidableEq ι] in
theorem applied_paused {i : ι} {a : String} {body : SuspensionRecord} {row : SuspensionRow}
    {one : Applied SuspensionRow} (hrow : w.row i a = some row) (hp : row.paused = true)
    (hle : body.suspensionSeq ≤ (row.toBody a).suspensionSeq)
    (h : w.applied nfc sha i a body = .ok one) : one.row.paused = true := by
  obtain ⟨hn, -⟩ | ⟨r, hr, -, hone, -⟩ | ⟨r, hr, -, hu⟩ := applyOne_cases h
  · rw [hrow] at hn
    cases hn
  · obtain rfl := Option.some.inj (hrow.symm.trans hr)
    rw [hone, hp]
  · obtain rfl := Option.some.inj (hrow.symm.trans hr)
    rw [(SuspensionRow.ofBody_ok hu).1]
    exact mergeSuspension_paused_of_le hle hp

/-! ### The invariant -/

/-- A version has absorbed its own record, and nothing newer. -/
structure Sound (w : World ι) : Prop where
  own : ∀ i a, ∀ v ∈ w i a, v.row.toBody a ∈ v.absorbed
  seq : ∀ i a, ∀ v ∈ w i a, ∀ c ∈ v.absorbed,
    c.suspensionSeq ≤ Double.number v.row.suspensionSeq.val

omit [DecidableEq ι] in
theorem sound_start (rows : ι → String → Option SuspensionRow) : Sound (World.start rows) := by
  have hmem : ∀ i a, ∀ v ∈ World.start rows i a, v.absorbed = [v.row.toBody a] := by
    intro i a v hv
    obtain ⟨row, -, rfl⟩ := List.mem_map.1 hv
    rfl
  constructor
  · intro i a v hv
    rw [hmem i a v hv]
    exact List.mem_singleton_self _
  · intro i a v hv c hc
    rw [hmem i a v hv, List.mem_singleton] at hc
    rw [hc]
    exact le_refl _

/-- What the next version of a row keeps of the row it replaces. -/
structure Advances (w : World ι) (i : ι) (a : String) (v : Version) : Prop where
  own : v.row.toBody a ∈ v.absorbed
  seq : ∀ row, w.row i a = some row →
    Double.number row.suspensionSeq.val ≤ Double.number v.row.suspensionSeq.val
  burned : ∀ row, w.row i a = some row → row.burned = true → v.row.burned = true
  keeps : ∀ c ∈ w.absorbed i a, c ∈ v.absorbed
  absorbed : ∀ c ∈ v.absorbed, c = v.row.toBody a ∨ c ∈ w.absorbed i a ∨
    ∃ j, ∃ u ∈ w j a, c ∈ u.absorbed ∧
      Double.number u.row.suspensionSeq.val ≤ Double.number v.row.suspensionSeq.val

omit [DecidableEq ι] in
theorem World.served_eq {j : ι} {a : String} {age : ℕ} {v : Version} (h : (w j a)[age]? = some v) :
    w.served j a age = some (v.row.toBody a) := by
  rw [World.served, h]
  rfl

omit [DecidableEq ι] in
theorem no_collision {i j : ι} {a : String} {age : ℕ} {body : SuspensionRecord}
    (hfree : Set.InjOn sha.hex {x | x ∈ w.versionTexts nfc sha (.apply i j a age)})
    (hbody : w.served j a age = some body) : ∀ row, w.row i a = some row →
      sha.hex (versionText nfc (mergeSuspension nfc sha (row.toBody a) body)) =
        sha.hex (versionText nfc (row.toBody a)) →
      versionText nfc (mergeSuspension nfc sha (row.toBody a) body) =
        versionText nfc (row.toBody a) := by
  intro row hrow h
  refine hfree ?_ ?_ h <;> simp [World.versionTexts, hrow, hbody]

theorem step_write {i : ι} {a : String} {mode : RevocationMode} {account : ChainStore.Uuid} {origin : String}
    {row : SuspensionRow} {out : RevocationOutcome}
    (h : applyRevocationFlag (w.row i a) mode account origin = .ok (some row, out)) :
    w.step nfc sha (.write i a mode account origin) =
      w.push i a ⟨row, row.toBody a :: w.absorbed i a⟩ := by
  simp only [World.step, h]

theorem step_apply {i j : ι} {a : String} {age : ℕ} {v : Version} {one : Applied SuspensionRow}
    (hv : (w j a)[age]? = some v) (h : w.applied nfc sha i a (v.row.toBody a) = .ok one) :
    w.step nfc sha (.apply i j a age) =
      w.push i a ⟨one.row, one.row.toBody a :: (v.absorbed ++ w.absorbed i a)⟩ := by
  simp only [World.step, hv, h]

/-- **One event**: nothing, or one row moves to a version that keeps what it must. -/
theorem step_cases {e : Event ι}
    (hfree : Set.InjOn sha.hex {x | x ∈ w.versionTexts nfc sha e}) :
    w.step nfc sha e = w ∨ ∃ i a v, w.step nfc sha e = w.push i a v ∧ Advances w i a v := by
  cases e with
  | write i a mode account origin =>
    cases hok : applyRevocationFlag (w.row i a) mode account origin with
    | error e => exact Or.inl (by simp only [World.step, hok])
    | ok p =>
      obtain ⟨row | row, out⟩ := p
      · exact Or.inl (by simp only [World.step, hok])
      refine Or.inr ⟨i, a, _, step_write hok, List.mem_cons_self, ?_, ?_,
        fun c hc => List.mem_cons_of_mem _ hc, ?_⟩
      · intro r hr
        rw [hr] at hok
        exact Double.number_mono (applyRevocationFlag_spec hok).1
      · intro r hr
        rw [hr] at hok
        exact (applyRevocationFlag_spec hok).2
      · intro c hc
        rcases List.mem_cons.1 hc with h | h
        · exact Or.inl h
        · exact Or.inr (Or.inl h)
  | apply i j a age =>
    cases hv : (w j a)[age]? with
    | none => exact Or.inl (by simp only [World.step, hv])
    | some v =>
      cases hok : w.applied nfc sha i a (v.row.toBody a) with
      | error e => exact Or.inl (by simp only [World.step, hv, hok])
      | ok one =>
        obtain ⟨hseq, -, hkeep⟩ := applied_spec (no_collision hfree (World.served_eq hv)) hok
        refine Or.inr ⟨i, a, _, step_apply hv hok, List.mem_cons_self, fun r hr => (hkeep r hr).1,
          fun r hr => (hkeep r hr).2,
          fun c hc => List.mem_cons_of_mem _ (List.mem_append_right _ hc), ?_⟩
        intro c hc
        rcases List.mem_cons.1 hc with h | h
        · exact Or.inl h
        rcases List.mem_append.1 h with h | h
        · exact Or.inr (Or.inr ⟨j, v, List.mem_of_getElem? hv, h, hseq⟩)
        · exact Or.inr (Or.inl h)

omit [DecidableEq ι] in
theorem Sound.absorbed_le (hw : Sound w) {i : ι} {a : String} {c : SuspensionRecord}
    (hc : c ∈ w.absorbed i a) : ∃ row, w.row i a = some row ∧
      c.suspensionSeq ≤ Double.number row.suspensionSeq.val := by
  cases hi : w i a with
  | nil => simp [World.absorbed, hi] at hc
  | cons v r =>
    rw [World.absorbed, hi] at hc
    exact ⟨v.row, by rw [World.row, hi]; rfl,
      hw.seq i a v (by rw [hi]; exact List.mem_cons_self) c hc⟩

theorem Sound.push (hw : Sound w) {i : ι} {a : String} {v : Version} (hv : Advances w i a v) :
    Sound (w.push i a v) := by
  have hnew : ∀ c ∈ v.absorbed, c.suspensionSeq ≤ Double.number v.row.suspensionSeq.val := by
    intro c hc
    rcases hv.absorbed c hc with rfl | h | ⟨j, u, hu, hcu, hle⟩
    · exact le_refl _
    · obtain ⟨row, hrow, hle⟩ := hw.absorbed_le h
      exact hle.trans (hv.seq row hrow)
    · exact (hw.seq j a u hu c hcu).trans hle
  -- the pushed version is new, every other one was there before
  have hmem : ∀ j b, ∀ u ∈ (w.push i a v) j b, (u = v ∧ b = a) ∨ u ∈ w j b := by
    intro j b u hu
    by_cases hjb : (j, b) = (i, a)
    · obtain ⟨rfl, rfl⟩ := Prod.mk.inj hjb
      rw [World.push_self] at hu
      rcases List.mem_cons.1 hu with rfl | h
      · exact Or.inl ⟨rfl, rfl⟩
      · exact Or.inr h
    · rw [World.push_of_ne v hjb] at hu
      exact Or.inr hu
  constructor
  · intro j b u hu
    rcases hmem j b u hu with ⟨rfl, rfl⟩ | h
    · exact hv.own
    · exact hw.own j b u h
  · intro j b u hu
    rcases hmem j b u hu with ⟨rfl, rfl⟩ | h
    · exact hnew
    · exact hw.seq j b u h

/-! ### The run at each moment -/

/-- A node's row is burned. -/
def World.Burned (w : World ι) (i : ι) (a : String) : Prop :=
  ∃ row, w.row i a = some row ∧ row.burned = true

/-- A node's row is paused. -/
def World.Paused (w : World ι) (i : ι) (a : String) : Prop :=
  ∃ row, w.row i a = some row ∧ row.paused = true

variable (nfc sha) in
/-- The world after the first `k` events. -/
def World.after (w : World ι) (es : List (Event ι)) (k : ℕ) : World ι := w.run nfc sha (es.take k)

theorem World.after_succ {es : List (Event ι)} {k : ℕ} {e : Event ι} (h : es[k]? = some e) :
    w.after nfc sha es (k + 1) = (w.after nfc sha es k).step nfc sha e := by
  rw [World.after, List.take_add_one, h, World.after, World.run, World.run, List.foldl_append]
  rfl

theorem World.after_succ_of_none {es : List (Event ι)} {k : ℕ} (h : es[k]? = none) :
    w.after nfc sha es (k + 1) = w.after nfc sha es k := by
  rw [World.after, List.take_add_one, h, Option.toList_none, List.append_nil, World.after]

theorem mem_runTexts : ∀ {es : List (Event ι)} {w : World ι} {k : ℕ} {e : Event ι} {x : String},
    es[k]? = some e → x ∈ (w.after nfc sha es k).versionTexts nfc sha e →
    x ∈ w.runTexts nfc sha es := by
  intro es
  induction es with
  | nil => intro w k e x h; simp at h
  | cons f es ih =>
    intro w k e x h hx
    cases k with
    | zero =>
      obtain rfl : f = e := by simpa using h
      exact List.mem_append_left _ hx
    | succ k =>
      rw [List.getElem?_cons_succ] at h
      exact List.mem_append_right _ (ih h hx)

theorem World.after_induction {P : World ι → Prop} {es : List (Event ι)}
    (hfree : CollisionFree nfc sha w es)
    (hstep : ∀ {u : World ι} {e : Event ι},
      Set.InjOn sha.hex {x | x ∈ u.versionTexts nfc sha e} → P u → P (u.step nfc sha e))
    {k l : ℕ} (hkl : k ≤ l) (hk : P (w.after nfc sha es k)) : P (w.after nfc sha es l) := by
  induction hkl with
  | refl => exact hk
  | @step l _ ih =>
    cases he : es[l]? with
    | none => rwa [World.after_succ_of_none he]
    | some e =>
      rw [World.after_succ he]
      exact hstep (hfree.mono fun x hx => mem_runTexts he hx) ih

theorem Sound.step (hw : Sound w) {e : Event ι}
    (hfree : Set.InjOn sha.hex {x | x ∈ w.versionTexts nfc sha e}) :
    Sound (w.step nfc sha e) := by
  obtain h | ⟨i, a, v, h, hv⟩ := step_cases hfree
  · rwa [h]
  · rw [h]
    exact hw.push hv

theorem World.Burned.step {i : ι} {a : String} (hb : w.Burned i a) {e : Event ι}
    (hfree : Set.InjOn sha.hex {x | x ∈ w.versionTexts nfc sha e}) :
    (w.step nfc sha e).Burned i a := by
  obtain ⟨row, hrow, hburned⟩ := hb
  obtain h | ⟨j, b, v, h, hv⟩ := step_cases hfree
  · rw [h]
    exact ⟨row, hrow, hburned⟩
  · rw [h]
    by_cases hij : (i, a) = (j, b)
    · obtain ⟨rfl, rfl⟩ := Prod.mk.inj hij
      exact ⟨v.row, World.row_push_self i a v, hv.burned row hrow hburned⟩
    · exact ⟨row, (World.row_push_of_ne v hij).trans hrow, hburned⟩

theorem mem_absorbed_step {i : ι} {a : String} {c : SuspensionRecord} (hc : c ∈ w.absorbed i a)
    {e : Event ι} (hfree : Set.InjOn sha.hex {x | x ∈ w.versionTexts nfc sha e}) :
    c ∈ (w.step nfc sha e).absorbed i a := by
  obtain h | ⟨j, b, v, h, hv⟩ := step_cases hfree
  · rwa [h]
  · rw [h]
    by_cases hij : (i, a) = (j, b)
    · obtain ⟨rfl, rfl⟩ := Prod.mk.inj hij
      rw [World.absorbed, World.push_self]
      exact hv.keeps c hc
    · rw [World.absorbed, World.push_of_ne v hij]
      exact hc

/-! ### Whole runs -/

variable (nfc sha) in
/-- The event writes the record to the row, or merges it into the row. -/
def World.Absorbs (w : World ι) (i : ι) (a : String) (c : SuspensionRecord) : Event ι → Prop
  | .write i' a' mode account origin => i' = i ∧ a' = a ∧ ∃ row out,
      applyRevocationFlag (w.row i a) mode account origin = .ok (some row, out) ∧ row.toBody a = c
  | .apply i' j a' age => i' = i ∧ a' = a ∧ w.served j a age = some c ∧
      ∃ one, w.applied nfc sha i a c = .ok one

theorem Sound.mem_absorbed (hw : Sound w) {i : ι} {a : String} {c : SuspensionRecord} {e : Event ι}
    (h : w.Absorbs nfc sha i a c e) : c ∈ (w.step nfc sha e).absorbed i a := by
  cases e with
  | write i' a' mode account origin =>
    obtain ⟨rfl, rfl, row, out, hok, rfl⟩ := h
    rw [step_write hok, World.absorbed, World.push_self]
    exact List.mem_cons_self
  | apply i' j a' age =>
    obtain ⟨rfl, rfl, hserved, one, hok⟩ := h
    obtain ⟨v, hv, rfl⟩ := Option.map_eq_some_iff.1 hserved
    rw [step_apply hv hok, World.absorbed, World.push_self]
    exact List.mem_cons_of_mem _
      (List.mem_append_left _ (hw.own j a' v (List.mem_of_getElem? hv)))

theorem Sound.paused_step (hw : Sound w) {i j : ι} {a : String} {age : ℕ}
    {c body : SuspensionRecord} (hc : c ∈ w.absorbed i a) (hserved : w.served j a age = some body)
    (hbody : body = c ∨ ∀ row, w.row i a = some row →
      body.suspensionSeq ≤ (row.toBody a).suspensionSeq) (hp : w.Paused i a) :
    (w.step nfc sha (.apply i j a age)).Paused i a := by
  obtain ⟨row, hrow, hpaused⟩ := hp
  have hle : body.suspensionSeq ≤ (row.toBody a).suspensionSeq := by
    rcases hbody with rfl | h
    · obtain ⟨r, hr, hle⟩ := hw.absorbed_le hc
      obtain rfl := Option.some.inj (hrow.symm.trans hr)
      exact hle
    · exact h row hrow
  obtain ⟨v, hv, rfl⟩ := Option.map_eq_some_iff.1 hserved
  cases hok : w.applied nfc sha i a (v.row.toBody a) with
  | error e =>
    rw [show w.step nfc sha (.apply i j a age) = w by simp only [World.step, hv, hok]]
    exact ⟨row, hrow, hpaused⟩
  | ok one =>
    rw [step_apply hv hok]
    exact ⟨one.row, World.row_push_self _ _ _, applied_paused hrow hpaused hle hok⟩

variable (nfc sha) in
/-- The world after the first `k` events of a run from the given rows. -/
def worldAt (rows : ι → String → Option SuspensionRow) (es : List (Event ι)) (k : ℕ) : World ι :=
  (World.start rows).after nfc sha es k

theorem worldAt_succ {rows : ι → String → Option SuspensionRow} {es : List (Event ι)} {k : ℕ}
    {e : Event ι} (h : es[k]? = some e) :
    worldAt nfc sha rows es (k + 1) = (worldAt nfc sha rows es k).step nfc sha e :=
  World.after_succ h

/-- **Kill-switch safety.**  In every run, whatever the rows it starts from: a burned row stays
burned, and so does every row that merges a burned record; a row that is paused or burned
after it absorbed a record stays paused under every later apply of that record and of any
record that is not newer than the row; and absorbing is what a write or an apply does. -/
theorem kill_switch_is_safe (rows : ι → String → Option SuspensionRow) (es : List (Event ι))
    (hfree : CollisionFree nfc sha (World.start rows) es) :
    (∀ i a k l, k ≤ l → (worldAt nfc sha rows es k).Burned i a →
      (worldAt nfc sha rows es l).Burned i a) ∧
    (∀ i j a age k l body one, k < l → es[k]? = some (.apply i j a age) →
      (worldAt nfc sha rows es k).served j a age = some body → body.burned = true →
      (worldAt nfc sha rows es k).applied nfc sha i a body = .ok one →
      (worldAt nfc sha rows es l).Burned i a) ∧
    (∀ i a mode account origin k c row out, mode ≠ .clear →
      es[k]? = some (.write i a mode account origin) →
      c ∈ (worldAt nfc sha rows es k).absorbed i a →
      applyRevocationFlag ((worldAt nfc sha rows es k).row i a) mode account origin
        = .ok (some row, out) →
      (worldAt nfc sha rows es (k + 1)).Paused i a ∧
      ∀ m j age body, k < m → es[m]? = some (.apply i j a age) →
        (worldAt nfc sha rows es m).served j a age = some body →
        (body = c ∨ ∀ r, (worldAt nfc sha rows es m).row i a = some r →
          body.suspensionSeq ≤ (r.toBody a).suspensionSeq) →
        (worldAt nfc sha rows es m).Paused i a →
        (worldAt nfc sha rows es (m + 1)).Paused i a) ∧
    (∀ i a c e k l, k < l → es[k]? = some e →
      (worldAt nfc sha rows es k).Absorbs nfc sha i a c e →
      c ∈ (worldAt nfc sha rows es l).absorbed i a) := by
  have hsound : ∀ k, Sound (worldAt nfc sha rows es k) := fun k =>
    World.after_induction hfree (fun hf hu => hu.step hf) (Nat.zero_le k) (sound_start rows)
  have hevent : ∀ {k e}, es[k]? = some e → Set.InjOn sha.hex
      {x | x ∈ (worldAt nfc sha rows es k).versionTexts nfc sha e} :=
    fun he => hfree.mono fun x hx => mem_runTexts he hx
  have hburned : ∀ i a k l, k ≤ l → (worldAt nfc sha rows es k).Burned i a →
      (worldAt nfc sha rows es l).Burned i a := fun i a k l hkl hb =>
    World.after_induction (P := fun u => u.Burned i a) hfree (fun hf hu => hu.step hf) hkl hb
  have habsorbed : ∀ i a c k l, k ≤ l →
      c ∈ (worldAt nfc sha rows es k).absorbed i a →
      c ∈ (worldAt nfc sha rows es l).absorbed i a := fun i a c k l hkl hc =>
    World.after_induction (P := fun u => c ∈ u.absorbed i a) hfree
      (fun hf hu => mem_absorbed_step hu hf) hkl hc
  refine ⟨hburned, ?_, ?_, ?_⟩
  · intro i j a age k l body one hkl he hserved hb hok
    refine hburned i a (k + 1) l hkl ?_
    obtain ⟨-, hb', -⟩ := applied_spec (no_collision (hevent he) hserved) hok
    obtain ⟨v, hv, rfl⟩ := Option.map_eq_some_iff.1 hserved
    rw [worldAt_succ he, step_apply hv hok]
    exact ⟨one.row, World.row_push_self _ _ _, hb' hb⟩
  · intro i a mode account origin k c row out hmode he hc hok
    constructor
    · rw [worldAt_succ he, step_write hok]
      exact ⟨row, World.row_push_self _ _ _, applyRevocationFlag_paused hmode hok⟩
    · intro m j age body hkm hm hserved hbody hp
      rw [worldAt_succ hm]
      exact (hsound m).paused_step (habsorbed i a c k m hkm.le hc) hserved hbody hp
  · intro i a c e k l hkl he habs
    refine habsorbed i a c (k + 1) l hkl ?_
    rw [worldAt_succ he]
    exact (hsound k).mem_absorbed habs

end

/-! ### A run with a clear and a burn -/

namespace KillSwitch.Sample

def nfc : Nfc := ⟨id, normalize_ascii_id⟩

/-- The account of the owner. -/
def account : ChainStore.Uuid :=
  ⟨"a0eebc99-9c0b-4ef8-bb6d-6bb9bd380a11", "a0eebc99-9c0b-4ef8-bb6d-6bb9bd380a11", by decide⟩

/-- One node pauses and clears; the other takes the clear, burns, and is offered the clear
again. -/
def events : List (Event Bool) :=
  [.write false "agent-1" .pause account "node-a",
   .write false "agent-1" .clear account "node-a",
   .apply true false "agent-1" 0,
   .write true "agent-1" .burn account "node-b",
   .apply true false "agent-1" 0]

def clearRecord : SuspensionRecord where
  agentId := "agent-1"
  paused := false
  burned := false
  reason := none
  authorizedByAccount := some account.1
  suspensionSeq := Double.number 2
  originNode := "node-a"

def burnedRow : SuspensionRow where
  paused := true
  burned := true
  reason := none
  authorizedByAccount := account
  suspensionSeq := ⟨3, by decide, by decide⟩
  originNode := some "node-b"

def sha : Sha256 := HexSha256.toSha256 <|
  .ofTable [(versionText nfc (burnedRow.toBody "agent-1"),
      0x6b6f8990ea6f4130b0b465598fe40a7a05d81f99fbc7f9646c932b2e45a058e4#256)]
    0xe3b0c44298fc1c149afbf4c8996fb92427ae41e4649b934ca495991b7852b855#256

theorem merge_clearRecord :
    mergeSuspension nfc sha (burnedRow.toBody "agent-1") clearRecord =
      burnedRow.toBody "agent-1" := by
  rw [mergeSuspension_of_gt (by decide)]
  rfl

theorem collisionFree : CollisionFree nfc sha (World.start fun _ _ => none) events := by
  have htexts : (World.start fun _ _ => none).runTexts nfc sha events =
      [versionText nfc (mergeSuspension nfc sha (burnedRow.toBody "agent-1") clearRecord),
        versionText nfc (burnedRow.toBody "agent-1")] := rfl
  rw [CollisionFree, htexts, merge_clearRecord]
  refine (HexSha256.ofTable_injOn (by decide)).mono fun x hx => ?_
  simpa [eq_comm] using hx

end KillSwitch.Sample

open KillSwitch.Sample in
theorem kill_switch_holds_against_the_old_clear :
    (worldAt nfc sha (fun _ _ => none) events 5).Burned true "agent-1" ∧
      (worldAt nfc sha (fun _ _ => none) events 5).Paused true "agent-1" := by
  obtain ⟨hburned, -, hpaused, habsorbed⟩ :=
    kill_switch_is_safe (fun _ _ => none) events collisionFree
  have hrow : (worldAt nfc sha (fun _ _ => none) events 4).row true "agent-1" = some burnedRow := rfl
  have hclear : clearRecord ∈ (worldAt nfc sha (fun _ _ => none) events 3).absorbed true "agent-1" :=
    habsorbed true "agent-1" clearRecord (.apply true false "agent-1" 0) 2 3 (by decide) rfl
      ⟨rfl, rfl, rfl, _, rfl⟩
  refine ⟨hburned true "agent-1" 4 5 (by decide) ⟨burnedRow, hrow, rfl⟩, ?_⟩
  exact (hpaused true "agent-1" .burn account "node-b" 3 clearRecord burnedRow .applied
    (by decide) rfl hclear rfl).2 4 false 0 clearRecord (by decide) rfl rfl (Or.inl rfl)
    ⟨burnedRow, hrow, rfl⟩

end Cello.Directory.AntiEntropy
