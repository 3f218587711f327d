import Cello.Lib.GuardedRun
import Cello.Relay.ContentStore.Restart

/-!
# The two stores agree

The store in files and the store in memory hold the same mailboxes, so they answer every call alike.  A
restart of the store in files changes no answer where it finds the queues in their order
(`stores_agree`); two deposits of one millisecond can change places (`restart_reorders`).
-/

namespace Cello.Relay.ContentStore

open Lib Cello.Interfaces

/-! ### Runs -/

/-- A call at a time of the clock, or a new store in files over the disk, as the file system lists it. -/
inductive StoreEvent where
  | call (now : ℤ) (c : StoreCall)
  | restart (disk : Disk)

def StoreEvent.isCall : StoreEvent → Bool
  | .call _ _ => true
  | .restart _ => false

variable {lim : ContentStoreLimits}

/-- The store in files after an event, with the answer to a call. -/
def fileStep (lim : ContentStoreLimits) (s : FileStore) : StoreEvent → FileStore × List StoreResult
  | .call now c =>
    match s.call lim now c with
    | (s', result) => (s', [result])
  | .restart disk => (FileStore.opened disk, [])

/-- The store in memory is not started again. -/
def memoryStep (lim : ContentStoreLimits) (s : InMemoryContentStore) :
    StoreEvent → InMemoryContentStore × List StoreResult
  | .call now c =>
    match s.call lim now c with
    | (s', result) => (s', [result])
  | .restart _ => (s, [])

/-- The answers of a run. -/
def answers {σ : Type} (step : σ → StoreEvent → σ × List StoreResult) : σ → List StoreEvent → List StoreResult
  | _, [] => []
  | s, e :: rest => (step s e).2 ++ answers step (step s e).1 rest

/-- **The condition at a restart**: the files are the same, and their names tell the order of the queues. -/
def RestartsInOrder (s : FileStore) : StoreEvent → Prop
  | .call _ _ => True
  | .restart disk => FileStore.SameFiles s.disk disk ∧ s.ensureLoaded.Orderly disk

/-! ### One event -/

/-- The two stores hold the same mailboxes. -/
structure Agree (s : FileStore) (m : InMemoryContentStore) : Prop where
  represents : ∃ mb : Mailboxes, s.ensureLoaded.Represents mb ∧ m.Represents mb
  disk : s.ensureLoaded.disk = s.disk

variable {s : FileStore} {m : InMemoryContentStore} {mb : Mailboxes}

theorem totals_eq (hs : s.Represents mb) (hm : m.Represents mb) : s.totals = m.totals := by
  have hsize : ∀ r, ((s.index.get r).getD Bucket.empty).bytes =
        InMemoryContentStore.bucketBytes ((m.byRecipient.get r).getD OrdMap.empty) ∧
      ((s.index.get r).getD Bucket.empty).size =
        ((m.byRecipient.get r).getD OrdMap.empty).entries.length := by
    intro r
    have hbucket : ((m.byRecipient.get r).getD OrdMap.empty).entries = mb r := hm.box r
    rw [InMemoryContentStore.bucketBytes, hbucket]
    exact FileStore.sizes_of_entries (hs.box r)
  have hbytes : s.totalBytes = m.totalBytes := by
    rw [hs.totalled.bytes, hm.bytes]
    refine OrdMap.total_congr fun r => ?_
    rw [s.index.sizeAt_eq_getD r (v := Bucket.empty) rfl,
      m.byRecipient.sizeAt_eq_getD r (v := OrdMap.empty) rfl]
    exact (hsize r).1
  have hentries : s.totalEntries = m.totalEntries := by
    rw [hs.totalled.entries, hm.entries]
    refine OrdMap.total_congr fun r => ?_
    rw [s.index.sizeAt_eq_getD r (v := Bucket.empty) rfl,
      m.byRecipient.sizeAt_eq_getD r (v := OrdMap.empty) rfl]
    exact (hsize r).2
  rw [FileStore.totals, InMemoryContentStore.totals, hbytes, hentries]

theorem ensureLoaded_of_loaded (h : s.loaded = true) : s.ensureLoaded = s := by
  rw [FileStore.ensureLoaded, if_pos h]

/-- **Both stores answer a call alike.** -/
theorem Agree.call (h : Agree s m) (now : ℤ) (c : StoreCall) :
    Agree (s.call lim now c).1 (m.call lim now c).1 ∧
      (s.call lim now c).2 = (m.call lim now c).2 := by
  obtain ⟨mb, hs, hm⟩ := h.represents
  obtain ⟨hs', hanswer⟩ := @FileStore.call_represents lim now s.ensureLoaded mb hs c
  obtain ⟨hm', hanswer'⟩ := @InMemoryContentStore.call_represents lim now m mb hm c
  have hbefore := totals_eq hs hm
  rw [hbefore] at hs' hanswer
  have hafter := totals_eq hs' hm'
  have hcount : s.ensureLoaded.totalEntries = m.totalEntries := (Totals.mk.inj hbefore).2
  have hcount' : (FileStore.callLoaded lim now s.ensureLoaded c).1.totalEntries =
      (m.call lim now c).1.totalEntries := (Totals.mk.inj hafter).2
  have hloaded : ((s.call lim now c).1).ensureLoaded = (s.call lim now c).1 :=
    ensureLoaded_of_loaded hs'.loaded
  refine ⟨⟨⟨_, hloaded.symm ▸ hs', hm'⟩, by rw [hloaded]⟩, ?_⟩
  rw [hanswer', ← hcount, ← hcount']
  exact hanswer

theorem Agree.restart (h : Agree s m) {d : Disk} (hguard : RestartsInOrder s (.restart d)) :
    Agree (FileStore.opened d) m := by
  obtain ⟨mb, hs, hm⟩ := h.represents
  obtain ⟨hsame, horderly⟩ := hguard
  rw [← h.disk] at hsame
  obtain ⟨hrep, hdisk⟩ := hs.restart hsame horderly
  exact ⟨⟨mb, hrep, hm⟩, hdisk⟩

/-- **One event** that meets the condition: the stores agree before and after, and in what they answer. -/
theorem Agree.step (h : Agree s m) {e : StoreEvent} (hguard : RestartsInOrder s e) :
    Agree (fileStep lim s e).1 (memoryStep lim m e).1 ∧ (fileStep lim s e).2 = (memoryStep lim m e).2 := by
  cases e with
  | call now c =>
    have hcall : Agree (s.call lim now c).1 (m.call lim now c).1 ∧ _ := h.call now c
    exact ⟨hcall.1, congrArg (fun r => [r]) hcall.2⟩
  | restart d => exact ⟨h.restart hguard, rfl⟩

theorem agree_new : Agree {} {} := by
  refine ⟨⟨fun _ => [], ⟨rfl, fun r => rfl, fun r e he => ?_, fun r => ⟨fun e he => ?_, ?_⟩, ⟨rfl, rfl⟩⟩,
    ⟨fun r => rfl, rfl, rfl⟩⟩, rfl⟩
  · cases he
  · cases he
  · exact fun f name _ hread => absurd rfl hread

/-! ### Runs -/

theorem answers_eq : ∀ (events : List StoreEvent) {s : FileStore} {m : InMemoryContentStore}, Agree s m →
    Guarded (fun s e => (fileStep lim s e).1) RestartsInOrder s events →
      answers (fileStep lim) s events = answers (memoryStep lim) m events := by
  intro events
  induction events with
  | nil => exact fun _ _ => rfl
  | cons e rest ih =>
    intro s m h hguard
    have hstep : Agree (fileStep lim s e).1 (memoryStep lim m e).1 ∧ _ := h.step hguard.1
    rw [answers, answers, hstep.2, ih hstep.1 hguard.2]

theorem answers_memory_filter : ∀ (events : List StoreEvent) (m : InMemoryContentStore),
    answers (memoryStep lim) m (events.filter StoreEvent.isCall) = answers (memoryStep lim) m events := by
  intro events
  induction events with
  | nil => exact fun _ => rfl
  | cons e rest ih =>
    intro m
    cases e with
    | call now c =>
      rw [List.filter_cons_of_pos rfl, answers, answers, ih]
    | restart d =>
      rw [List.filter_cons_of_neg Bool.false_ne_true, answers, ih]
      rfl

theorem guarded_calls : ∀ (events : List StoreEvent) (s : FileStore),
    Guarded (fun s e => (fileStep lim s e).1) RestartsInOrder s (events.filter StoreEvent.isCall) := by
  intro events
  induction events with
  | nil => exact fun _ => trivial
  | cons e rest ih =>
    intro s
    cases e with
    | call now c => exact ⟨trivial, ih _⟩
    | restart d => exact ih s

theorem calls_agree (lim : ContentStoreLimits) (events : List StoreEvent) :
    answers (fileStep lim) {} (events.filter StoreEvent.isCall) = answers (memoryStep lim) {} events := by
  rw [answers_eq _ agree_new (guarded_calls events {}), answers_memory_filter]

/-- **The two stores agree**, and restarts change nothing, in every run whose restarts find the queues in
their order. -/
theorem stores_agree (lim : ContentStoreLimits) (events : List StoreEvent)
    (h : Guarded (fun s e => (fileStep lim s e).1) RestartsInOrder {} events) :
    answers (fileStep lim) {} events = answers (memoryStep lim) {} events ∧
      answers (fileStep lim) {} events = answers (fileStep lim) {} (events.filter StoreEvent.isCall) := by
  have hsame := answers_eq events agree_new h
  refine ⟨hsame, ?_⟩
  rw [hsame, calls_agree]

/-! ### A restart that changes nothing, and one that does -/

namespace Sample

open FileStore.Sample

/-- Two entries for each recipient. -/
def limits : ContentStoreLimits := { defaultLimits with maxRecipientEntries := 2 }

/-- A directory that lists the second of two deposits first. -/
def relisted (first second : ContentStoreEntry) : Disk :=
  (Disk.write OrdMap.empty "07" (fileOf ("bb", second)) second).write "07" (fileOf ("aa", first)) first

/-- Two deposits, a restart, and a third deposit that makes the oldest entry go. -/
def events (later : ℤ) : List StoreEvent :=
  [.call 0 (.deposit (mail 0xaa 0 1)), .call later (.deposit (mail 0xbb later 1)),
    .restart (relisted (mail 0xaa 0 1) (mail 0xbb later 1)),
    .call 5 (.deposit (mail 0xcc 5 1)), .call 6 (.listContentHashesFor "07")]

/-- The store that is started again. -/
def twoParked (later : ℤ) : FileStore :=
  ((FileStore.call limits 0 {} (.deposit (mail 0xaa 0 1))).1.call limits later
    (.deposit (mail 0xbb later 1))).1

theorem twoParked_disk (later : ℤ) (hlater : later = 0 ∨ later = 1) : (twoParked later).disk =
    (Disk.write OrdMap.empty "07" (fileOf ("aa", mail 0xaa 0 1)) (mail 0xaa 0 1)).write "07"
      (fileOf ("bb", mail 0xbb later 1)) (mail 0xbb later 1) := by
  rcases hlater with rfl | rfl <;> rfl

theorem sameFiles_twoParked (later : ℤ) (hlater : later = 0 ∨ later = 1) :
    FileStore.SameFiles (twoParked later).disk (relisted (mail 0xaa 0 1) (mail 0xbb later 1)) := by
  have hne : fileOf ("aa", mail 0xaa 0 1) ≠ fileOf ("bb", mail 0xbb later 1) := by
    rcases hlater with rfl | rfl <;> decide
  intro r f
  rw [twoParked_disk later hlater, relisted, Disk.read_write, Disk.read_write, Disk.read_write,
    Disk.read_write]
  by_cases hfirst : r = "07" ∧ f = fileOf ("aa", mail 0xaa 0 1)
  · rw [if_pos hfirst, if_pos hfirst, if_neg]
    rintro ⟨-, hsecond⟩
    exact hne (hfirst.2.symm.trans hsecond)
  · rw [if_neg hfirst, if_neg hfirst]

theorem bucketOf_twoParked (r : String) : (twoParked 1).ensureLoaded.bucketOf r =
    if r = "07" then [indexed ("aa", mail 0xaa 0 1), indexed ("bb", mail 0xbb 1 1)] else [] := by
  split
  next hr =>
    subst hr
    decide
  next hr =>
    have hkeys : (twoParked 1).ensureLoaded.index.keys = ["07"] := by decide
    have hnone : ¬((twoParked 1).ensureLoaded.index.get r).isSome = true := by
      rw [← OrdMap.mem_keys_iff, hkeys, List.mem_singleton]
      exact hr
    rw [Bool.not_eq_true, Option.isSome_eq_false_iff, Option.isNone_iff_eq_none] at hnone
    rw [FileStore.bucketOf, hnone]
    rfl

theorem orderly_twoParked : (twoParked 1).ensureLoaded.Orderly (relisted (mail 0xaa 0 1) (mail 0xbb 1 1)) := by
  refine ⟨bucketOf_twoParked "", fun r e he => ?_, fun r => ?_⟩
  · rw [bucketOf_twoParked] at he
    split at he
    · rcases List.mem_pair.1 he with rfl | rfl
      · decide
      · decide
    · cases he
  · rw [bucketOf_twoParked]
    split
    · exact List.pairwise_pair.2 (.inl (by decide))
    · exact .nil

end Sample

/-- A restart over a directory that lists the second deposit first changes nothing: the times tell. -/
theorem stores_agree_relisted : answers (fileStep Sample.limits) {} (Sample.events 1) =
    answers (memoryStep Sample.limits) {} (Sample.events 1) :=
  (stores_agree Sample.limits (Sample.events 1)
    ⟨trivial, trivial, ⟨Sample.sameFiles_twoParked 1 (.inr rfl), Sample.orderly_twoParked⟩, trivial, trivial,
      trivial⟩).1

/-- **Two deposits of one millisecond change places at a restart**, and the third makes the wrong one go. -/
theorem restart_reorders : FileStore.SameFiles (Sample.twoParked 0).disk
      (Sample.relisted (FileStore.Sample.mail 0xaa 0 1) (FileStore.Sample.mail 0xbb 0 1)) ∧
    answers (fileStep Sample.limits) {} (Sample.events 0) =
      [.done, .done, .done, .hashes ["aa", "cc"]] ∧
    answers (memoryStep Sample.limits) {} (Sample.events 0) =
      [.done, .done, .done, .hashes ["bb", "cc"]] ∧
    answers (fileStep Sample.limits) {} (Sample.events 0) ≠
      answers (fileStep Sample.limits) {} ((Sample.events 0).filter StoreEvent.isCall) := by
  refine ⟨Sample.sameFiles_twoParked 0 (.inl rfl), ?_, ?_, ?_⟩
  · decide
  · decide
  · decide

end Cello.Relay.ContentStore
