import Cello.Waitlist.Gate
import Mathlib.Data.List.Sort

/-!
# The cohort of a wave

`validate` and `select_cohort` of `infra/lambda/waitlist-waves/handler.py`, with nobody writing beside them.  Three
queries take the premium users and a share each of those with points and those without, and a fourth fills up from who
is left.  Behind the first three the fourth goes on where they stopped (`selectBackfill_eq`), so the cohort is a
beginning of each of three lines (`selectCohort_eq`), and the law of the waves is read off them (`wave_cohort_law`).
-/

namespace Cello.Waitlist.WaveCohort

/-! ### The request -/

/-- A value of the body; anything that is no number of Python's `int` is alike. -/
inductive PyValue where
  | int (n : ℤ)
  | bool (b : Bool)
  | other

/-- What `isinstance(value, int)` lets through; Python's booleans are integers. -/
def PyValue.int? : PyValue → Option ℤ
  | int n => some n
  | bool b => some (if b then 1 else 0)
  | other => none

structure Body where
  capacity : Option PyValue
  priorityPct : Option PyValue
  zeroPct : Option PyValue
  openedBy : Gate.Field

inductive Failure where
  /-- `WaveError`. -/
  | refused (status : ℕ) (code message : String)
  /-- Any other exception. -/
  | raised (name : String)
deriving DecidableEq

/-- What `validate` answers. -/
structure Params where
  capacity : ℕ
  priorityPct : ℕ
  zeroPct : ℕ
  openedBy : String
  capacity_pos : 0 < capacity
  split : priorityPct + zeroPct ≤ 100

def percent (value : PyValue) : Option ℕ := do
  let n ← value.int?
  if 0 ≤ n ∧ n ≤ 100 then some n.toNat else none

def invalidPercent (name : String) : Failure :=
  .refused 400 ("invalid_" ++ name) (name ++ " must be an integer between 0 and 100.")

def validate {κ : Type} (lib : Gate.Library κ) (body : Body) : Except Failure Params :=
  -- what is no integer is refused as 0 is
  let capacity := ((body.capacity.bind PyValue.int?).getD 0).toNat
  if hcapacity : 0 < capacity then
    match percent (body.priorityPct.getD (.int 75)), percent (body.zeroPct.getD (.int 25)) with
    | none, _ => .error (invalidPercent "priority_pct")
    | _, none => .error (invalidPercent "zero_pct")
    | some priorityPct, some zeroPct =>
      if hsplit : priorityPct + zeroPct ≤ 100 then
        match body.openedBy.orEmpty with
        | none => .error (.raised "AttributeError")
        | some openedBy =>
          if Gate.strip lib openedBy = "" then
            .error (.refused 400 "missing_opened_by" ("opened_by is required — DOD-INV-WAVE-GATE means " ++
              "every wave names the operator who opened it."))
          else .ok ⟨capacity, priorityPct, zeroPct, Gate.strip lib openedBy, hcapacity, hsplit⟩
      else .error (.refused 400 "split_exceeds_capacity" ("priority_pct + zero_pct is " ++
        toString (priorityPct + zeroPct) ++ "; the two shares are of the " ++
        "same remaining capacity and cannot exceed 100."))
  else .error (.refused 400 "invalid_capacity" "capacity must be a positive integer.")

/-! ### The selection -/

structure User where
  waitlistId : ℕ
  status : String
  emailVerified : Bool
  premiumReferred : Bool
  pointsTotal : ℕ
  createdAt : ℤ
deriving DecidableEq

structure Token where
  waitlistUserId : ℕ
  usedAt : Option ℤ
  retiredAt : Option ℤ
  expiresAt : ℤ

/-- `waitlist_users`, of whom no two signed up at one time, and `waitlist_tokens`. -/
structure Tables where
  users : List User
  tokens : List Token
  ids : (users.map User.waitlistId).Nodup
  times : (users.map User.createdAt).Nodup

def reap (now : ℤ) (tokens : List Token) : List Token :=
  tokens.map fun t =>
    if t.usedAt = none ∧ t.retiredAt = none ∧ t.expiresAt ≤ now then { t with retiredAt := some now } else t

def User.eligible (tokens : List Token) (u : User) : Bool :=
  decide (u.status = "waiting") && u.emailVerified && !tokens.any fun t =>
    decide (t.waitlistUserId = u.waitlistId) && t.usedAt.isNone && t.retiredAt.isNone

/-- `ORDER BY created_at ASC`. -/
def byCreated (u v : User) : Prop := u.createdAt ≤ v.createdAt

/-- `ORDER BY points_total DESC, created_at ASC`. -/
def byPoints (u v : User) : Prop :=
  v.pointsTotal < u.pointsTotal ∨ u.pointsTotal = v.pointsTotal ∧ u.createdAt ≤ v.createdAt

instance : DecidableRel byCreated := fun u v => inferInstanceAs (Decidable (u.createdAt ≤ v.createdAt))

instance : DecidableRel byPoints := fun u v =>
  inferInstanceAs
    (Decidable (v.pointsTotal < u.pointsTotal ∨ u.pointsTotal = v.pointsTotal ∧ u.createdAt ≤ v.createdAt))

def select (users : List User) (condition : User → Bool) (order : User → User → Prop) [DecidableRel order]
    (limit : ℕ) : List ℕ :=
  (((users.filter condition).insertionSort order).take limit).map User.waitlistId

/-- What `select_cohort` returns. -/
structure Cohort where
  admitted : List ℕ
  premium : ℕ
  priority : ℕ
  zero : ℕ
deriving DecidableEq

section

variable (w : Tables) (now : ℤ)

def User.open (excluded : List ℕ) (u : User) : Bool :=
  u.eligible (reap now w.tokens) && decide (u.waitlistId ∉ excluded)

def selectPremium (limit : ℕ) : List ℕ :=
  select w.users (fun u => u.open w now [] && u.premiumReferred) byCreated limit

def selectPriority (premium : List ℕ) (limit : ℕ) : List ℕ :=
  select w.users (fun u => u.open w now premium && (!u.premiumReferred && decide (0 < u.pointsTotal))) byPoints limit

def selectZero (taken : List ℕ) (limit : ℕ) : List ℕ :=
  select w.users (fun u => u.open w now taken && (!u.premiumReferred && decide (u.pointsTotal = 0))) byCreated limit

def selectBackfill (selected : List ℕ) (allowZeroBackfill : Bool) (limit : ℕ) : List ℕ :=
  select w.users (fun u => u.open w now selected && (allowZeroBackfill || decide (0 < u.pointsTotal))) byPoints limit

def selectCohort (p : Params) : Cohort :=
  let premium := selectPremium w now p.capacity
  let remaining := p.capacity - premium.length
  if remaining = 0 then ⟨premium, premium.length, 0, 0⟩
  else
    let priority := selectPriority w now premium (remaining * p.priorityPct / 100)
    let zero := selectZero w now (premium ++ priority) (remaining * p.zeroPct / 100)
    let selected := premium ++ priority ++ zero
    let shortfall := p.capacity - selected.length
    let backfill := if 0 < shortfall then selectBackfill w now selected (decide (0 < p.zeroPct)) shortfall else []
    let backfillZero := (w.users.filter fun u => decide (u.waitlistId ∈ backfill) && decide (u.pointsTotal = 0)).length
    ⟨selected ++ backfill, premium.length, priority.length + (backfill.length - backfillZero),
      zero.length + backfillZero⟩

end

/-! ### The law -/

inductive Kind where
  | premium
  | points
  | none
deriving DecidableEq

def User.kind (u : User) : Kind :=
  if u.premiumReferred = true then .premium else if 0 < u.pointsTotal then .points else .none

section

variable (w : Tables) (now : ℤ) (p : Params)

def eligibles (condition : User → Bool) : List User :=
  w.users.filter fun u => u.eligible (reap now w.tokens) && condition u

def line : Kind → List User
  | .points => (eligibles w now fun u => decide (u.kind = .points)).insertionSort byPoints
  | k => (eligibles w now fun u => decide (u.kind = k)).insertionSort byCreated

def admissible (u : User) : Bool := decide (0 < p.zeroPct) || u.premiumReferred || decide (0 < u.pointsTotal)

/-- What a cohort of some users is to be. -/
structure Law (cohort : Cohort) (rows : List User) : Prop where
  ids : cohort.admitted = rows.map User.waitlistId
  nodup : cohort.admitted.Nodup
  eligible : ∀ u ∈ rows, u ∈ w.users ∧ u.eligible (reap now w.tokens) = true
  size : cohort.admitted.length = min p.capacity (eligibles w now (admissible p)).length
  /-- The premium users come first, and none is left out while another user is taken. -/
  premiumFirst : (line w now .premium).take p.capacity <+: rows
  premiumAll : (∃ u ∈ rows, u.kind ≠ .premium) → ∀ u ∈ line w now .premium, u ∈ rows
  /-- Those of each kind are a beginning of their line. -/
  begins : ∀ k, rows.filter (fun u => decide (u.kind = k)) <+: line w now k
  zeroShare : min ((p.capacity - (rows.map User.kind).count .premium) * p.zeroPct / 100) (line w now .none).length ≤
    (rows.map User.kind).count .none
  premium : cohort.premium = (rows.map User.kind).count .premium
  priority : cohort.priority = (rows.map User.kind).count .points
  zero : cohort.zero = (rows.map User.kind).count .none

end

variable {w : Tables} {now : ℤ} {p : Params} {u v : User} {k : Kind}

/-! ### Lines -/

instance : Std.Total byCreated := ⟨fun _ _ => le_total _ _⟩

instance : IsTrans User byCreated := ⟨fun _ _ _ => le_trans⟩

instance : Std.Total byPoints := ⟨fun _ _ => by unfold byPoints; omega⟩

instance : IsTrans User byPoints := ⟨fun _ _ _ => by unfold byPoints; omega⟩

theorem kind_iff : (u.kind = .premium ↔ u.premiumReferred = true) ∧
    (u.kind = .points ↔ u.premiumReferred = false ∧ 0 < u.pointsTotal) ∧
    (u.kind = .none ↔ u.premiumReferred = false ∧ u.pointsTotal = 0) := by
  unfold User.kind
  grind

theorem line_perm : (line w now k).Perm (eligibles w now fun u => decide (u.kind = k)) := by
  cases k <;> exact List.perm_insertionSort _ _

theorem mem_line : u ∈ line w now k ↔ u ∈ w.users ∧ u.eligible (reap now w.tokens) = true ∧ u.kind = k := by
  rw [line_perm.mem_iff, eligibles, List.mem_filter, Bool.and_eq_true, decide_eq_true_eq]

theorem nodup_line : (line w now k).Nodup := line_perm.nodup_iff.2 (w.ids.of_map.filter _)

theorem mem_ids {l : List User} (hl : ∀ v ∈ l, v ∈ w.users) (hu : u ∈ w.users) :
    u.waitlistId ∈ l.map User.waitlistId ↔ u ∈ l := by
  refine ⟨fun h => ?_, List.mem_map_of_mem⟩
  obtain ⟨v, hv, hid⟩ := List.mem_map.1 h
  exact List.inj_on_of_nodup_map w.ids (hl v hv) hu hid ▸ hv

theorem mem_drop_iff {n : ℕ} : u ∈ (line w now k).drop n ↔ u ∈ line w now k ∧ u ∉ (line w now k).take n := by
  constructor
  · exact fun h => ⟨List.mem_of_mem_drop h, fun htake => List.disjoint_take_drop nodup_line le_rfl htake h⟩
  · rintro ⟨hu, htake⟩
    rw [← List.take_append_drop n (line w now k)] at hu
    exact (List.mem_append.1 hu).resolve_left htake

/-! ### The rows -/

section

variable (w now p)

def prioritySlots : ℕ := (p.capacity - (line w now .premium).length) * p.priorityPct / 100

def zeroSlots : ℕ := (p.capacity - (line w now .premium).length) * p.zeroPct / 100

def selectedRows : List User := (line w now .premium).take p.capacity ++
  (line w now .points).take (prioritySlots w now p) ++ (line w now .none).take (zeroSlots w now p)

def shortfall : ℕ := p.capacity - (selectedRows w now p).length

def leftOver : List User := (line w now .points).drop (prioritySlots w now p) ++
  if 0 < p.zeroPct then (line w now .none).drop (zeroSlots w now p) else []

def backfillRows : List User := (leftOver w now p).take (shortfall w now p)

def rows : List User := selectedRows w now p ++ backfillRows w now p

def extra : ℕ :=
  if 0 < p.zeroPct then shortfall w now p - ((line w now .points).length - prioritySlots w now p) else 0

def taken : Kind → ℕ
  | .premium => p.capacity
  | .points => prioritySlots w now p + shortfall w now p
  | .none => zeroSlots w now p + extra w now p

end

theorem backfillRows_eq : backfillRows w now p =
    ((line w now .points).drop (prioritySlots w now p)).take (shortfall w now p) ++
      ((line w now .none).drop (zeroSlots w now p)).take (extra w now p) := by
  rw [backfillRows, leftOver, List.take_append, List.length_drop, extra]
  split <;> simp

theorem filter_line {k' : Kind} {l : List User} (h : l ⊆ line w now k) :
    l.filter (fun u => decide (u.kind = k')) = if k = k' then l else [] := by
  have hkind : ∀ u ∈ l, u.kind = k := fun u hu => (mem_line.1 (h hu)).2.2
  split
  · rename_i heq
    exact List.filter_eq_self.2 fun u hu => decide_eq_true ((hkind u hu).trans heq)
  · rename_i hne
    refine List.filter_eq_nil_iff.2 fun u hu hk => hne ?_
    exact (hkind u hu).symm.trans (of_decide_eq_true hk)

theorem filter_rows (k : Kind) :
    (rows w now p).filter (fun u => decide (u.kind = k)) = (line w now k).take (taken w now p k) := by
  have htake : ∀ (k : Kind) (n : ℕ), (line w now k).take n ⊆ line w now k := fun _ _ => List.take_subset _ _
  have hdrop : ∀ (k : Kind) (m n : ℕ), ((line w now k).drop m).take n ⊆ line w now k := fun _ _ _ =>
    List.Subset.trans (List.take_subset _ _) (List.drop_subset _ _)
  rw [rows, selectedRows, backfillRows_eq]
  simp only [List.filter_append, filter_line (htake _ _), filter_line (hdrop _ _ _)]
  cases k <;> simp [taken, List.take_add]

theorem nodup_rows : (rows w now p).Nodup := by
  refine List.nodup_iff_count_le_one.2 fun u => ?_
  have hfilter := @filter_rows w now p u.kind
  rw [← List.count_filter (p := fun v : User => decide (v.kind = u.kind)) (decide_eq_true rfl), hfilter]
  exact List.nodup_iff_count_le_one.1 (nodup_line.sublist (List.take_sublist _ _)) u

theorem mem_rows (h : u ∈ rows w now p) : u ∈ line w now u.kind := by
  have hu : u ∈ (rows w now p).filter fun v => decide (v.kind = u.kind) := List.mem_filter.2 ⟨h, decide_eq_true rfl⟩
  rw [filter_rows] at hu
  exact List.mem_of_mem_take hu

theorem count_kind (k : Kind) (l : List User) :
    (l.map User.kind).count k = (l.filter fun u => decide (u.kind = k)).length := by
  rw [List.count, List.countP_map, List.countP_eq_length_filter]
  rfl

theorem count_rows (k : Kind) :
    ((rows w now p).map User.kind).count k = min (taken w now p k) (line w now k).length := by
  rw [← List.length_take, ← filter_rows, count_kind]

theorem length_eq_kinds (l : List User) : l.length =
    (l.map User.kind).count .premium + (l.map User.kind).count .points + (l.map User.kind).count .none := by
  induction l with
  | nil => rfl
  | cons u l ih =>
    rw [List.length_cons, List.map_cons, List.count_cons, List.count_cons, List.count_cons, ih]
    cases u.kind <;> simp <;> omega

/-! ### The queries -/

theorem mem_users_of_selected (h : u ∈ selectedRows w now p) : u ∈ w.users :=
  (mem_line.1 (mem_rows (List.mem_append_left _ h))).1

theorem select_eq {condition : User → Bool} {order : User → User → Prop} [DecidableRel order] {limit : ℕ}
    {l : List User} (hl : ∀ v ∈ l, v ∈ w.users ∧ v.kind ≠ k) (hcondition : ∀ u, condition u = decide (u.kind = k))
    (hline : (eligibles w now fun u => decide (u.kind = k)).insertionSort order = line w now k) :
    select w.users (fun u => u.open w now (l.map User.waitlistId) && condition u) order limit =
      ((line w now k).take limit).map User.waitlistId := by
  have hfilter : w.users.filter (fun u => u.open w now (l.map User.waitlistId) && condition u) =
      eligibles w now fun u => decide (u.kind = k) := by
    refine List.filter_congr fun u hu => ?_
    rw [hcondition, User.open]
    by_cases hkind : u.kind = k
    · have hout : u ∉ l := fun h => (hl u h).2 hkind
      rw [decide_eq_true (mt (mem_ids (fun v hv => (hl v hv).1) hu).1 hout), Bool.and_true]
    · simp only [decide_eq_false hkind, Bool.and_false]
  rw [select, hfilter, hline]

theorem mem_leftOver : u ∈ leftOver w now p ↔ u ∈ (line w now .points).drop (prioritySlots w now p) ∨
    0 < p.zeroPct ∧ u ∈ (line w now .none).drop (zeroSlots w now p) := by
  unfold leftOver
  split <;> simp [*]

theorem pairwise_leftOver : (leftOver w now p).Pairwise fun u v => byPoints u v ∧ u ≠ v := by
  have hkind : ∀ {k n u}, u ∈ (line w now k).drop n → u.kind = k := fun hu =>
    (mem_line.1 (List.mem_of_mem_drop hu)).2.2
  have hpoints : (line w now .points).Pairwise byPoints := List.pairwise_insertionSort _ _
  have hnone : (line w now .none).Pairwise byCreated := List.pairwise_insertionSort _ _
  refine List.pairwise_append.2 ⟨(hpoints.and nodup_line).sublist (List.drop_sublist _ _), ?_, fun u hu v hv => ?_⟩
  · split
    · refine ((hnone.and nodup_line).sublist (List.drop_sublist _ _)).imp_of_mem fun hu hv h => h.imp_left fun h =>
        .inr ⟨?_, h⟩
      rw [(kind_iff.2.2.1 (hkind hu)).2, (kind_iff.2.2.1 (hkind hv)).2]
    · exact List.Pairwise.nil
  · split at hv
    · have hmore : v.pointsTotal < u.pointsTotal := by
        rw [(kind_iff.2.2.1 (hkind hv)).2]
        exact (kind_iff.2.1.1 (hkind hu)).2
      exact ⟨.inl hmore, fun heq => absurd hmore (heq ▸ lt_irrefl _)⟩
    · cases hv

theorem nodup_leftOver : (leftOver w now p).Nodup := pairwise_leftOver.imp And.right

theorem selectBackfill_eq (hall : (line w now .premium).length ≤ p.capacity) :
    selectBackfill w now ((selectedRows w now p).map User.waitlistId) (decide (0 < p.zeroPct)) (shortfall w now p) =
      (backfillRows w now p).map User.waitlistId := by
  have hmem : ∀ u, u ∈ w.users.filter (fun u => u.open w now ((selectedRows w now p).map User.waitlistId) &&
      (decide (0 < p.zeroPct) || decide (0 < u.pointsTotal))) ↔ u ∈ leftOver w now p := by
    intro u
    simp only [List.mem_filter, User.open, Bool.and_eq_true, Bool.or_eq_true, decide_eq_true_eq]
    rw [mem_leftOver, mem_drop_iff, mem_drop_iff]
    by_cases hu : u ∈ w.users
    · rw [mem_ids (fun _ => mem_users_of_selected) hu, selectedRows, List.take_of_length_le hall, List.mem_append,
        List.mem_append, mem_line, mem_line, mem_line]
      have htake : ∀ {k n}, u ∈ (line w now k).take n → u.kind = k := fun hu =>
        (mem_line.1 (List.mem_of_mem_take hu)).2.2
      have hpoints := @htake .points (prioritySlots w now p)
      have hnone := @htake .none (zeroSlots w now p)
      have hkind := @kind_iff u
      grind
    · exact iff_of_false (fun h => hu h.1) (by simp [mem_line, hu])
  have hperm := (List.perm_insertionSort byPoints _).trans
    ((List.perm_ext_iff_of_nodup (w.ids.of_map.filter _) nodup_leftOver).2 hmem)
  have hsame := hperm.eq_of_pairwise (fun u v hu hv huv hvu => ?_) (List.pairwise_insertionSort _ _)
    (pairwise_leftOver.imp And.left)
  · rw [selectBackfill, select, hsame, backfillRows]
  · have hin : ∀ {x}, x ∈ leftOver w now p → x ∈ w.users := fun hx => (List.mem_filter.1 ((hmem _).2 hx)).1
    refine List.inj_on_of_nodup_map w.times (hin (hperm.mem_iff.1 hu)) (hin hv) ?_
    unfold byPoints at huv hvu
    omega

theorem length_backfill : (backfillRows w now p).length =
      min (shortfall w now p) ((line w now .points).length - prioritySlots w now p) +
        min (extra w now p) ((line w now .none).length - zeroSlots w now p) ∧
    ((backfillRows w now p).map User.kind).count .none =
      min (extra w now p) ((line w now .none).length - zeroSlots w now p) := by
  have hdrop : ∀ (k : Kind) (m n : ℕ), ((line w now k).drop m).take n ⊆ line w now k := fun _ _ _ =>
    List.Subset.trans (List.take_subset _ _) (List.drop_subset _ _)
  rw [count_kind, backfillRows_eq, List.filter_append, filter_line (hdrop _ _ _), filter_line (hdrop _ _ _)]
  simp

theorem backfillZero_eq : (w.users.filter fun u => decide (u.waitlistId ∈ (backfillRows w now p).map User.waitlistId) &&
    decide (u.pointsTotal = 0)).length = ((backfillRows w now p).map User.kind).count .none := by
  have hrows : ∀ u ∈ backfillRows w now p, u ∈ w.users ∧ (u.kind = .none ↔ u.pointsTotal = 0) := by
    intro u hu
    refine ⟨(mem_line.1 (mem_rows (List.mem_append_right _ hu))).1, ?_⟩
    have hother : u.kind ≠ .premium := by
      rcases mem_leftOver.1 (List.mem_of_mem_take hu) with h | ⟨-, h⟩ <;>
        rw [(mem_line.1 (List.mem_of_mem_drop h)).2.2] <;> decide
    rw [kind_iff.2.2, Bool.eq_false_iff.2 (mt kind_iff.1.2 hother), and_iff_right rfl]
  have hnodup : (backfillRows w now p).Nodup := nodup_leftOver.sublist (List.take_sublist _ _)
  rw [count_kind]
  refine List.Perm.length_eq ((List.perm_ext_iff_of_nodup (w.ids.of_map.filter _) (hnodup.filter _)).2 fun u => ?_)
  simp only [List.mem_filter, Bool.and_eq_true, decide_eq_true_eq]
  constructor
  · rintro ⟨hu, hid, hzero⟩
    have hin := (mem_ids (fun v hv => (hrows v hv).1) hu).1 hid
    exact ⟨hin, (hrows u hin).2.2 hzero⟩
  · rintro ⟨hin, hkind⟩
    exact ⟨(hrows u hin).1, List.mem_map_of_mem hin, (hrows u hin).2.1 hkind⟩

theorem slots_le : prioritySlots w now p + zeroSlots w now p ≤ p.capacity - (line w now .premium).length := by
  have hsplit := Nat.mul_le_mul_left (p.capacity - (line w now .premium).length) p.split
  rw [Nat.mul_add] at hsplit
  unfold prioritySlots zeroSlots
  omega

theorem shortfall_eq : shortfall w now p = p.capacity - (min p.capacity (line w now .premium).length +
    min (prioritySlots w now p) (line w now .points).length + min (zeroSlots w now p) (line w now .none).length) := by
  simp only [shortfall, selectedRows, List.length_append, List.length_take]

/-- **The code returns the rows.** -/
theorem selectCohort_eq : selectCohort w now p = ⟨(rows w now p).map User.waitlistId,
    ((rows w now p).map User.kind).count .premium, ((rows w now p).map User.kind).count .points,
    ((rows w now p).map User.kind).count .none⟩ := by
  have hslots := @slots_le w now p
  have hshort := @shortfall_eq w now p
  have hpremium : selectPremium w now p.capacity = ((line w now .premium).take p.capacity).map User.waitlistId :=
    select_eq (l := []) (fun _ hv => absurd hv List.not_mem_nil)
      (fun u => Bool.eq_iff_iff.2 (kind_iff.1.symm.trans decide_eq_true_iff.symm)) rfl
  have hremaining : p.capacity - (((line w now .premium).take p.capacity).map User.waitlistId).length =
      p.capacity - (line w now .premium).length := by
    rw [List.length_map, List.length_take]
    omega
  rw [selectCohort]
  dsimp only
  rw [hpremium, hremaining]
  split
  · rename_i hfull
    have hnone : shortfall w now p = 0 := by omega
    have h₁ : prioritySlots w now p = 0 := by omega
    have h₂ : zeroSlots w now p = 0 := by omega
    rw [count_rows, count_rows, count_rows, rows, selectedRows, backfillRows, taken, taken, taken, extra, hnone, h₁, h₂]
    simp
  · rename_i hleft
    have htake : ∀ {k k' : Kind} {n : ℕ}, k ≠ k' → ∀ u ∈ (line w now k).take n, u ∈ w.users ∧ u.kind ≠ k' :=
      fun hne u hu => (mem_line.1 (List.mem_of_mem_take hu)).imp_right fun h => by rwa [h.2]
    have hpriority : selectPriority w now (((line w now .premium).take p.capacity).map User.waitlistId)
        (prioritySlots w now p) = ((line w now .points).take (prioritySlots w now p)).map User.waitlistId :=
      select_eq (htake (by decide))
        (fun u => by rw [decide_eq_decide.2 kind_iff.2.1, Bool.decide_and, Bool.decide_eq_false]) rfl
    have hzero : selectZero w now (((line w now .premium).take p.capacity ++
        (line w now .points).take (prioritySlots w now p)).map User.waitlistId) (zeroSlots w now p) =
          ((line w now .none).take (zeroSlots w now p)).map User.waitlistId :=
      select_eq (fun u hu => (List.mem_append.1 hu).elim (htake (by decide) u) (htake (by decide) u))
        (fun u => by rw [decide_eq_decide.2 kind_iff.2.2, Bool.decide_and, Bool.decide_eq_false]) rfl
    have hbackfill : (if 0 < shortfall w now p then (backfillRows w now p).map User.waitlistId else []) =
        (backfillRows w now p).map User.waitlistId := by
      split
      · rfl
      · rename_i hno
        rw [backfillRows, Nat.eq_zero_of_not_pos hno, List.take_zero, List.map_nil]
    rw [← prioritySlots, hpriority, ← List.map_append, ← zeroSlots, hzero, ← List.map_append, ← selectedRows,
      List.length_map, ← shortfall, selectBackfill_eq (by omega), hbackfill, backfillZero_eq]
    obtain ⟨hlength, hcount⟩ := @length_backfill w now p
    simp only [Cohort.mk.injEq, List.length_map, List.length_take, count_rows, taken, hlength, hcount, true_and]
    rw [← List.map_append, ← rows]
    refine ⟨rfl, ?_, ?_⟩
    · omega
    · omega

theorem count_eligibles {condition : User → Bool} {b : Bool} (h : ∀ u : User, u.kind = k → condition u = b) :
    ((eligibles w now condition).map User.kind).count k = if b = true then (line w now k).length else 0 := by
  have hfilter : (eligibles w now condition).filter (fun u => decide (u.kind = k)) =
      w.users.filter fun u => b && (u.eligible (reap now w.tokens) && decide (u.kind = k)) := by
    rw [eligibles, List.filter_filter]
    refine List.filter_congr fun u _ => ?_
    by_cases hkind : u.kind = k
    · rw [h u hkind, decide_eq_true hkind, Bool.true_and, Bool.and_true, Bool.and_comm]
    · rw [decide_eq_false hkind, Bool.false_and, Bool.and_false, Bool.and_false]
  rw [count_kind, line_perm.length_eq, hfilter]
  cases b with
  | false => simp
  | true => rfl

theorem length_rows : (rows w now p).length = min p.capacity (eligibles w now (admissible p)).length := by
  have hslots := @slots_le w now p
  have hshort := @shortfall_eq w now p
  have hzero : ¬0 < p.zeroPct → zeroSlots w now p = 0 := fun h => by
    rw [zeroSlots, Nat.eq_zero_of_not_pos h, Nat.mul_zero, Nat.zero_div]
  have hpremium := @count_eligibles w now .premium (admissible p) true fun u hu => by
    rw [admissible, kind_iff.1.1 hu, Bool.or_true, Bool.true_or]
  have hpoints := @count_eligibles w now .points (admissible p) true fun u hu => by
    rw [admissible, decide_eq_true (kind_iff.2.1.1 hu).2, Bool.or_true]
  have hnone := @count_eligibles w now .none (admissible p) (decide (0 < p.zeroPct)) fun u hu => by
    obtain ⟨hpremium, hnone⟩ := kind_iff.2.2.1 hu
    rw [admissible, hpremium, hnone, Bool.or_false, decide_eq_false (lt_irrefl 0), Bool.or_false]
  rw [length_eq_kinds (eligibles w now _), hpremium, hpoints, hnone, if_pos rfl, if_pos rfl,
    length_eq_kinds (rows w now p), count_rows, count_rows, count_rows, taken, taken, taken, extra]
  by_cases hpos : 0 < p.zeroPct
  · simp only [hpos, decide_true, if_true]
    omega
  · have hslot := hzero hpos
    simp only [hpos, decide_false, if_false, Bool.false_eq_true]
    omega

theorem take_premium_rows : (line w now .premium).take p.capacity <+: rows w now p :=
  ((List.prefix_append _ _).trans (List.prefix_append _ _)).trans (List.prefix_append _ _)

theorem premium_mem_rows (hu : u ∈ rows w now p) (hother : u.kind ≠ .premium) (hv : v ∈ line w now .premium) :
    v ∈ rows w now p := by
  have hslots := @slots_le w now p
  have hshort := @shortfall_eq w now p
  have hroom : (line w now .premium).length ≤ p.capacity := by
    by_contra hfull
    have htaken : taken w now p u.kind = 0 := by
      cases hkind : u.kind with
      | premium => exact absurd hkind hother
      | points =>
        rw [taken]
        omega
      | none =>
        rw [taken, extra]
        split <;> omega
    have hmem : u ∈ (rows w now p).filter fun v => decide (v.kind = u.kind) :=
      List.mem_filter.2 ⟨hu, decide_eq_true rfl⟩
    rw [filter_rows, htaken, List.take_zero] at hmem
    cases hmem
  have hprefix := @take_premium_rows w now p
  rw [List.take_of_length_le hroom] at hprefix
  exact hprefix.subset hv

/-- **The law of the waves**: whatever the tables hold and whatever was asked for, the cohort is what it is to be. -/
theorem wave_cohort_law (w : Tables) (now : ℤ) (p : Params) : ∃ rows, Law w now p (selectCohort w now p) rows := by
  refine ⟨rows w now p, ?_⟩
  rw [selectCohort_eq]
  refine ⟨rfl, ?_, fun u hu => (mem_line.1 (mem_rows hu)).imp_right And.left, ?_, take_premium_rows, ?_, fun k => ?_,
    ?_, rfl, rfl, rfl⟩
  · exact nodup_rows.map_on fun u hu v hv =>
      List.inj_on_of_nodup_map w.ids (mem_line.1 (mem_rows hu)).1 (mem_line.1 (mem_rows hv)).1
  · rw [List.length_map, length_rows]
  · rintro ⟨u, hu, hother⟩ v hv
    exact premium_mem_rows hu hother hv
  · rw [filter_rows]
    exact List.take_prefix _ _
  · have hremaining : p.capacity - min p.capacity (line w now .premium).length =
        p.capacity - (line w now .premium).length := by omega
    rw [count_rows, count_rows, taken, taken, hremaining, ← zeroSlots]
    omega

end Cello.Waitlist.WaveCohort
