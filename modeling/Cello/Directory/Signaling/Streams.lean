import Mathlib.Data.List.Nodup
import Mathlib.Data.Nat.Init
import Cello.Lib.GuardedRun

/-!
# The registration of signaling streams

An agent may hold several signaling streams at once, and the directory delivers to one of them: the
one `#streams` names.  Registering, superseding and closing keep that entry on an open stream, a
home stream where there is one (`Targeted`), and the close of the last stream reads it to decide
whether an offline presence is owed.

Delivery is the one other writer of the entry.  A send that throws removes it and nothing else, so
from then on the agent's open streams are registered nowhere, and the close that would have written
the offline presence does not recognise its stream.  `registration_tracks_open_streams` is about
the runs in which no send throws.
-/

namespace Cello.Directory.Signaling

open Lib

abbrev StreamId := ℕ

/-- What the handler of a stream knows: nothing yet, the key and the `visiting` flag it
authenticated, or that it has run its `finally`. -/
inductive Handler where
  | connected
  | authed (pubkeyHex : String) (visiting : Bool)
  | closed
  deriving DecidableEq, Repr

/-- An element of `#agentStreams`. -/
structure StreamEntry where
  stream : StreamId
  visiting : Bool
  deriving DecidableEq, Repr

/-- What the directory does beyond its maps. -/
inductive Output where
  | online (pubkeyHex : String)
  | offline (pubkeyHex : String)
  | frame (stream : StreamId)
  | enqueued (pubkeyHex : String)
  deriving DecidableEq, Repr

/-- The three maps, the handlers of all streams, and the outputs so far. -/
structure Registry where
  handlers : StreamId → Handler
  streams : String → Option StreamId
  agentStreams : String → List StreamEntry
  agentHomeSeen : String → Bool
  outputs : List Output

/-- A directory that has just started. -/
def Registry.init : Registry where
  handlers := fun _ => .connected
  streams := fun _ => none
  agentStreams := fun _ => []
  agentHomeSeen := fun _ => false
  outputs := []

/-! ### Registering -/

def homeStreamLive (live : List StreamEntry) (stream : StreamId) : Bool :=
  live.any fun e => !e.visiting && e.stream ≠ stream

/-- What a verified authentication response registers. -/
def authenticate (s : Registry) (stream : StreamId) (pubkeyHex : String) (visiting : Bool) :
    Registry where
  handlers := Function.update s.handlers stream (.authed pubkeyHex visiting)
  streams :=
    if !visiting || !homeStreamLive (s.agentStreams pubkeyHex) stream then
      Function.update s.streams pubkeyHex (some stream)
    else s.streams
  agentStreams :=
    Function.update s.agentStreams pubkeyHex (s.agentStreams pubkeyHex ++ [⟨stream, visiting⟩])
  agentHomeSeen :=
    if !visiting then Function.update s.agentHomeSeen pubkeyHex true else s.agentHomeSeen
  outputs := s.outputs ++ if visiting then [] else [.online pubkeyHex]

/-! ### Closing -/

def survivorOf (remaining : List StreamEntry) : Option StreamEntry :=
  (remaining.filter fun e => !e.visiting).getLast?.or remaining.getLast?

/-- The `finally` of a stream that had authenticated. -/
def closeStream (s : Registry) (stream : StreamId) (pubkeyHex : String) (visiting : Bool) :
    Registry :=
  let remaining := (s.agentStreams pubkeyHex).eraseP fun e => e.stream = stream
  let handlers := Function.update s.handlers stream .closed
  match survivorOf remaining with
  | some survivor =>
    { s with
      handlers := handlers
      agentStreams := Function.update s.agentStreams pubkeyHex remaining
      streams :=
        if s.streams pubkeyHex = some stream then
          Function.update s.streams pubkeyHex (some survivor.stream)
        else s.streams }
  | none =>
    { handlers := handlers
      agentStreams := Function.update s.agentStreams pubkeyHex []
      agentHomeSeen := Function.update s.agentHomeSeen pubkeyHex false
      streams :=
        if s.streams pubkeyHex = some stream then Function.update s.streams pubkeyHex none
        else s.streams
      outputs :=
        -- the offline write stands inside the identity test
        if s.streams pubkeyHex = some stream ∧ (!visiting || s.agentHomeSeen pubkeyHex) then
          s.outputs ++ [.offline pubkeyHex]
        else s.outputs }

/-! ### Delivering -/

/-- What an attempt to deliver meets: the frame may not encode, and the send may throw. -/
structure Attempt where
  encodes : Bool
  sends : Bool
  deriving DecidableEq, Repr

/-- The common body of the two deliveries; `fallback` is what an undelivered event comes to. -/
def deliver (fallback : List Output) (s : Registry) (pubkeyHex : String) (a : Attempt) : Registry :=
  if !a.encodes then s
  else
    match s.streams pubkeyHex with
    | some stream =>
      if a.sends then { s with outputs := s.outputs ++ [.frame stream] }
      else
        { s with
          streams := Function.update s.streams pubkeyHex none
          outputs := s.outputs ++ fallback }
    | none => { s with outputs := s.outputs ++ fallback }

/-- `#deliverOrEnqueue`: an event that cannot be delivered is queued. -/
def deliverOrEnqueue (s : Registry) (pubkeyHex : String) (a : Attempt) : Registry :=
  deliver (if pubkeyHex ≠ "" then [.enqueued pubkeyHex] else []) s pubkeyHex a

/-- `#deliverFrostSealed`: an event that cannot be delivered is dropped. -/
def deliverFrostSealed (s : Registry) (pubkeyHex : String) (a : Attempt) : Registry :=
  deliver [] s pubkeyHex a

/-! ### Runs -/

/-- One thing that happens to the directory. -/
inductive StreamEvent where
  | auth (stream : StreamId) (pubkeyHex : String) (visiting : Bool)
  | close (stream : StreamId)
  | deliverOrEnqueue (pubkeyHex : String) (attempt : Attempt)
  | deliverFrostSealed (pubkeyHex : String) (attempt : Attempt)
  deriving DecidableEq, Repr

/-- One step.  A handler registers once, and its `finally` runs once. -/
def streamStep (s : Registry) : StreamEvent → Registry
  | .auth stream pubkeyHex visiting =>
    match s.handlers stream with
    | .connected => authenticate s stream pubkeyHex visiting
    | .authed _ _ => s
    | .closed => s
  | .close stream =>
    match s.handlers stream with
    | .connected => { s with handlers := Function.update s.handlers stream .closed }
    | .authed pubkeyHex visiting => closeStream s stream pubkeyHex visiting
    | .closed => s
  | .deliverOrEnqueue pubkeyHex attempt => deliverOrEnqueue s pubkeyHex attempt
  | .deliverFrostSealed pubkeyHex attempt => deliverFrostSealed s pubkeyHex attempt

/-- The state after the first `m` events. -/
def registryAt (events : List StreamEvent) (m : ℕ) : Registry :=
  (events.take m).foldl streamStep Registry.init

/-- A delivery to a registered stream does not throw. -/
def SendSucceeds (s : Registry) : StreamEvent → Prop
  | .auth _ _ _ => True
  | .close _ => True
  | .deliverOrEnqueue pubkeyHex a => a.encodes = true → (s.streams pubkeyHex).isSome → a.sends = true
  | .deliverFrostSealed pubkeyHex a =>
    a.encodes = true → (s.streams pubkeyHex).isSome → a.sends = true

def OpenFor (s : Registry) (pubkeyHex : String) : Prop :=
  ∃ stream visiting, s.handlers stream = .authed pubkeyHex visiting

/-- Whoever has an open stream is registered with one, a home stream where one is open. -/
def RegistrationTracks (s : Registry) : Prop :=
  ∀ pubkeyHex, OpenFor s pubkeyHex → ∃ stream visiting,
    s.streams pubkeyHex = some stream ∧ s.handlers stream = .authed pubkeyHex visiting ∧
      ((∃ home, s.handlers home = .authed pubkeyHex false) → visiting = false)

/-- Event `m` closes the last open stream of an agent that registered a home stream at event `k`
and has not been without a stream since. -/
structure ClosesLast (events : List StreamEvent) (m : ℕ) (pubkeyHex : String) : Prop where
  close : ∃ stream visiting, events[m]? = some (.close stream) ∧
    (registryAt events m).handlers stream = .authed pubkeyHex visiting
  last : ¬OpenFor (registryAt events (m + 1)) pubkeyHex
  home : ∃ k home, k < m ∧ events[k]? = some (.auth home pubkeyHex false) ∧
    (registryAt events k).handlers home = .connected ∧
    ∀ j, k < j → j ≤ m → OpenFor (registryAt events j) pubkeyHex

/-! ### The set of open streams is kept in every run -/

/-- `#agentStreams` lists each open stream of each agent once. -/
structure Recorded (s : Registry) : Prop where
  mem_iff : ∀ pubkeyHex e, e ∈ s.agentStreams pubkeyHex ↔
    s.handlers e.stream = .authed pubkeyHex e.visiting
  nodup : ∀ pubkeyHex, ((s.agentStreams pubkeyHex).map StreamEntry.stream).Nodup

variable {s : Registry} {pubkeyHex : String} {stream : StreamId}

theorem Recorded.openFor_iff (h : Recorded s) :
    OpenFor s pubkeyHex ↔ s.agentStreams pubkeyHex ≠ [] := by
  constructor
  · rintro ⟨stream, visiting, hopen⟩
    exact List.ne_nil_of_mem ((h.mem_iff pubkeyHex ⟨stream, visiting⟩).2 hopen)
  · intro hne
    obtain ⟨e, he⟩ := List.exists_mem_of_ne_nil _ hne
    exact ⟨e.stream, e.visiting, (h.mem_iff pubkeyHex e).1 he⟩

theorem mem_eraseP_stream : ∀ {live : List StreamEntry},
    (live.map StreamEntry.stream).Nodup → ∀ {e : StreamEntry},
      e ∈ live.eraseP (fun x => x.stream = stream) ↔ e ∈ live ∧ e.stream ≠ stream := by
  intro live
  induction live with
  | nil =>
    intro _ e
    simp
  | cons x rest ih =>
    intro hnd e
    rw [List.map_cons, List.nodup_cons] at hnd
    by_cases hx : x.stream = stream
    · rw [List.eraseP_cons_of_pos (by simpa using hx)]
      constructor
      · intro he
        refine ⟨List.mem_cons_of_mem _ he, fun hes => hnd.1 ?_⟩
        rw [hx, ← hes]
        exact List.mem_map_of_mem he
      · rintro ⟨he, hne⟩
        rcases List.mem_cons.1 he with rfl | he
        · exact absurd hx hne
        · exact he
    · rw [List.eraseP_cons_of_neg (by simpa using hx), List.mem_cons, ih hnd.2, List.mem_cons]
      constructor
      · rintro (rfl | ⟨he, hne⟩)
        · exact ⟨Or.inl rfl, hx⟩
        · exact ⟨Or.inr he, hne⟩
      · rintro ⟨rfl | he, hne⟩
        · exact Or.inl rfl
        · exact Or.inr ⟨he, hne⟩

theorem survivorOf_eq_none {live : List StreamEntry} : survivorOf live = none ↔ live = [] := by
  simp only [survivorOf, Option.or_eq_none_iff, List.getLast?_eq_none_iff, and_iff_right_iff_imp]
  rintro rfl
  rfl

theorem survivorOf_eq_some {live : List StreamEntry} {e : StreamEntry}
    (h : survivorOf live = some e) :
    e ∈ live ∧ (e.visiting = true → ∀ x ∈ live, x.visiting = true) := by
  unfold survivorOf at h
  cases hhome : (live.filter fun e => !e.visiting).getLast? with
  | some home =>
    rw [hhome, Option.some_or, Option.some.injEq] at h
    subst h
    have hmem := List.mem_filter.1 (List.mem_of_getLast? hhome)
    refine ⟨hmem.1, fun hv => ?_⟩
    simp [hv] at hmem
  | none =>
    rw [hhome, Option.none_or] at h
    refine ⟨List.mem_of_getLast? h, fun _ x hx => ?_⟩
    rw [List.getLast?_eq_none_iff, List.filter_eq_nil_iff] at hhome
    simpa using hhome x hx

theorem closeStream_recorded (s : Registry) (stream : StreamId) (pubkeyHex : String)
    (visiting : Bool) :
    (closeStream s stream pubkeyHex visiting).handlers =
      Function.update s.handlers stream .closed ∧
    (closeStream s stream pubkeyHex visiting).agentStreams =
      Function.update s.agentStreams pubkeyHex
        ((s.agentStreams pubkeyHex).eraseP fun e => e.stream = stream) := by
  cases hsurvivor : survivorOf ((s.agentStreams pubkeyHex).eraseP fun e => e.stream = stream) with
  | some survivor =>
    simp only [closeStream, hsurvivor]
    exact ⟨trivial, trivial⟩
  | none =>
    simp only [closeStream, hsurvivor]
    rw [survivorOf_eq_none.1 hsurvivor]
    exact ⟨trivial, rfl⟩

theorem deliver_recorded (fallback : List Output) (s : Registry) (pubkeyHex : String) (a : Attempt) :
    (deliver fallback s pubkeyHex a).handlers = s.handlers ∧
      (deliver fallback s pubkeyHex a).agentStreams = s.agentStreams ∧
      (deliver fallback s pubkeyHex a).agentHomeSeen = s.agentHomeSeen := by
  unfold deliver
  split
  · exact ⟨rfl, rfl, rfl⟩
  · split
    · split
      · exact ⟨rfl, rfl, rfl⟩
      · exact ⟨rfl, rfl, rfl⟩
    · exact ⟨rfl, rfl, rfl⟩

theorem Recorded.authenticate (h : Recorded s) (hnew : s.handlers stream = .connected)
    (pubkeyHex : String) (visiting : Bool) :
    Recorded (authenticate s stream pubkeyHex visiting) := by
  -- no list holds the new stream yet
  have hfresh : ∀ key, ∀ e ∈ s.agentStreams key, e.stream ≠ stream := by
    intro key e he heq
    have hopen := (h.mem_iff key e).1 he
    rw [heq, hnew] at hopen
    exact absurd hopen (by simp)
  constructor
  · intro key e
    by_cases hstream : e.stream = stream
    · have hold : e ∉ s.agentStreams key := fun he => hfresh key e he hstream
      by_cases hkey : key = pubkeyHex
      · subst hkey
        simp only [Signaling.authenticate, Function.update_self, List.mem_append,
          List.mem_singleton, hold, false_or, hstream, Handler.authed.injEq, true_and]
        constructor
        · rintro rfl
          rfl
        · rintro rfl
          rw [← hstream]
      · simp only [Signaling.authenticate, Function.update_of_ne hkey, hstream,
          Function.update_self, hold, false_iff, Handler.authed.injEq, not_and]
        exact fun heq => absurd heq.symm hkey
    · have hnot : e ≠ ⟨stream, visiting⟩ := fun he => hstream (by rw [he])
      simp only [Signaling.authenticate, Function.update_of_ne hstream]
      by_cases hkey : key = pubkeyHex
      · subst hkey
        simp only [Function.update_self, List.mem_append, List.mem_singleton, hnot, or_false]
        exact h.mem_iff key e
      · rw [Function.update_of_ne hkey]
        exact h.mem_iff key e
  · intro key
    simp only [Signaling.authenticate]
    by_cases hkey : key = pubkeyHex
    · subst hkey
      rw [Function.update_self, List.map_append, List.nodup_append]
      refine ⟨h.nodup key, by simp, ?_⟩
      intro a ha b hb
      obtain ⟨e, he, rfl⟩ := List.mem_map.1 ha
      simp only [List.map_cons, List.map_nil, List.mem_singleton] at hb
      subst hb
      exact hfresh key e he
    · rw [Function.update_of_ne hkey]
      exact h.nodup key

theorem Recorded.closeStream (h : Recorded s) {visiting : Bool}
    (hopen : s.handlers stream = .authed pubkeyHex visiting) :
    Recorded (closeStream s stream pubkeyHex visiting) := by
  obtain ⟨hhandlers, hstreams⟩ := closeStream_recorded s stream pubkeyHex visiting
  constructor
  · intro key e
    rw [hhandlers, hstreams]
    by_cases hkey : key = pubkeyHex
    · subst hkey
      rw [Function.update_self, mem_eraseP_stream (h.nodup key)]
      by_cases hstream : e.stream = stream
      · simp [hstream]
      · simp [hstream, h.mem_iff]
    · rw [Function.update_of_ne hkey, h.mem_iff]
      by_cases hstream : e.stream = stream
      · rw [hstream, hopen, Function.update_self]
        simp [Ne.symm hkey]
      · rw [Function.update_of_ne hstream]
  · intro key
    rw [hstreams]
    by_cases hkey : key = pubkeyHex
    · subst hkey
      rw [Function.update_self]
      exact (h.nodup key).sublist (List.eraseP_sublist.map _)
    · rw [Function.update_of_ne hkey]
      exact h.nodup key

theorem Recorded.of_eq {s s' : Registry} (h : Recorded s) (hhandlers : s'.handlers = s.handlers)
    (hstreams : s'.agentStreams = s.agentStreams) : Recorded s' where
  mem_iff := by
    rw [hhandlers, hstreams]
    exact h.mem_iff
  nodup := by
    rw [hstreams]
    exact h.nodup

theorem Recorded.step (h : Recorded s) (e : StreamEvent) :
    Recorded (streamStep s e) := by
  cases e with
  | auth stream pubkeyHex visiting =>
    simp only [streamStep]
    split
    next hnew => exact h.authenticate hnew pubkeyHex visiting
    next => exact h
    next => exact h
  | close stream =>
    simp only [streamStep]
    split
    next hnew =>
      refine ⟨fun key e => ?_, h.nodup⟩
      rw [h.mem_iff]
      by_cases hstream : e.stream = stream
      · simp [hstream, hnew]
      · simp [hstream]
    next hopen => exact h.closeStream hopen
    next => exact h
  | deliverOrEnqueue pubkeyHex a =>
    have hd := deliver_recorded (if pubkeyHex ≠ "" then [.enqueued pubkeyHex] else []) s pubkeyHex a
    exact h.of_eq hd.1 hd.2.1
  | deliverFrostSealed pubkeyHex a =>
    have hd := deliver_recorded [] s pubkeyHex a
    exact h.of_eq hd.1 hd.2.1

theorem recorded_init : Recorded Registry.init :=
  ⟨fun _ _ => by simp [Registry.init], fun _ => List.nodup_nil⟩

theorem registryAt_succ {events : List StreamEvent} {m : ℕ} {e : StreamEvent}
    (h : events[m]? = some e) : registryAt events (m + 1) = streamStep (registryAt events m) e :=
  foldl_take_succ h Registry.init

theorem recorded_registryAt (events : List StreamEvent) (m : ℕ) : Recorded (registryAt events m) := by
  unfold registryAt
  generalize events.take m = es
  have hrun : ∀ (es : List StreamEvent) (s : Registry), Recorded s →
      Recorded (es.foldl streamStep s) := by
    intro es
    induction es with
    | nil =>
      intro s hs
      exact hs
    | cons e rest ih =>
      intro s hs
      exact ih _ (hs.step e)
  exact hrun es _ recorded_init

/-! ### The delivery target -/

def Targeted (s : Registry) : Prop :=
  ∀ pubkeyHex, s.agentStreams pubkeyHex ≠ [] → ∃ e ∈ s.agentStreams pubkeyHex,
    s.streams pubkeyHex = some e.stream ∧
      (e.visiting = true → ∀ x ∈ s.agentStreams pubkeyHex, x.visiting = true)

theorem Targeted.authenticate (hr : Recorded s) (ht : Targeted s)
    (hnew : s.handlers stream = .connected) (pubkeyHex : String) (visiting : Bool) :
    Targeted (authenticate s stream pubkeyHex visiting) := by
  intro key hne
  by_cases hkey : key = pubkeyHex
  · subst hkey
    simp only [Signaling.authenticate, Function.update_self]
    by_cases hset : (!visiting || !homeStreamLive (s.agentStreams key) stream) = true
    · refine ⟨⟨stream, visiting⟩, by simp, by simp [hset], ?_⟩
      intro hv x hx
      dsimp only at hv
      subst hv
      rcases List.mem_append.1 hx with hx | hx
      · -- no home stream was open, and `x` is not the new stream
        have hne : x.stream ≠ stream := by
          intro heq
          have hopen := (hr.mem_iff key x).1 hx
          rw [heq, hnew] at hopen
          exact absurd hopen (by simp)
        simp only [Bool.not_true, Bool.false_or, Bool.not_eq_true', homeStreamLive,
          List.any_eq_false, Bool.and_eq_true, Bool.not_eq_true', decide_eq_true_eq,
          not_and, not_not] at hset
        by_contra hv
        exact hne (hset x hx (by simpa using hv))
      · simp only [List.mem_singleton] at hx
        rw [hx]
    · -- the visiting stream leaves the entry on a home stream
      simp only [Bool.or_eq_true, Bool.not_eq_true', not_or, Bool.not_eq_false] at hset
      obtain ⟨hv, hlive⟩ := hset
      obtain ⟨home, hhome, hvisiting⟩ : ∃ home ∈ s.agentStreams key, home.visiting = false := by
        simp only [homeStreamLive, List.any_eq_true, Bool.and_eq_true, Bool.not_eq_true'] at hlive
        obtain ⟨home, hhome, hvisiting, -⟩ := hlive
        exact ⟨home, hhome, hvisiting⟩
      obtain ⟨e, he, htarget, honly⟩ := ht key (List.ne_nil_of_mem hhome)
      have heHome : e.visiting ≠ true := by
        intro hev
        have := honly hev home hhome
        simp [hvisiting] at this
      refine ⟨e, List.mem_append_left _ he, ?_, fun hev => absurd hev heHome⟩
      simp [hv, hlive, htarget]
  · have hold : (Signaling.authenticate s stream pubkeyHex visiting).agentStreams key = s.agentStreams key := by
      simp [Signaling.authenticate, hkey]
    have hentry : (Signaling.authenticate s stream pubkeyHex visiting).streams key = s.streams key := by
      simp only [Signaling.authenticate]
      split
      · rw [Function.update_of_ne hkey]
      · rfl
    rw [hold] at hne ⊢
    rw [hentry]
    exact ht key hne

theorem closeStream_streams (s : Registry) (stream : StreamId) (pubkeyHex : String)
    (visiting : Bool) :
    (closeStream s stream pubkeyHex visiting).streams =
      if s.streams pubkeyHex = some stream then
        Function.update s.streams pubkeyHex
          ((survivorOf ((s.agentStreams pubkeyHex).eraseP fun e => e.stream = stream)).map
            StreamEntry.stream)
      else s.streams := by
  unfold closeStream
  cases hsurvivor : survivorOf ((s.agentStreams pubkeyHex).eraseP fun e => e.stream = stream) with
  | some survivor => simp only [hsurvivor, Option.map_some]
  | none => simp only [hsurvivor, Option.map_none]

theorem Targeted.closeStream (hr : Recorded s) (ht : Targeted s) (stream : StreamId)
    (pubkeyHex : String) (visiting : Bool) :
    Targeted (closeStream s stream pubkeyHex visiting) := by
  obtain ⟨-, hstreams⟩ := closeStream_recorded s stream pubkeyHex visiting
  intro key hne
  rw [hstreams] at hne ⊢
  rw [closeStream_streams]
  by_cases hkey : key = pubkeyHex
  · subst hkey
    rw [Function.update_self] at hne ⊢
    by_cases hentry : s.streams key = some stream
    · rw [if_pos hentry, Function.update_self]
      cases hsurvivor : survivorOf ((s.agentStreams key).eraseP fun e => e.stream = stream) with
      | none => exact absurd (survivorOf_eq_none.1 hsurvivor) hne
      | some survivor =>
        obtain ⟨hmem, honly⟩ := survivorOf_eq_some hsurvivor
        exact ⟨survivor, hmem, rfl, honly⟩
    · rw [if_neg hentry]
      have hlive : s.agentStreams key ≠ [] := by
        intro hnil
        rw [hnil] at hne
        exact hne rfl
      obtain ⟨e, he, htarget, honly⟩ := ht key hlive
      have hother : e.stream ≠ stream := by
        rintro rfl
        exact hentry htarget
      refine ⟨e, (mem_eraseP_stream (hr.nodup key)).2 ⟨he, hother⟩, htarget, ?_⟩
      intro hev x hx
      exact honly hev x ((mem_eraseP_stream (hr.nodup key)).1 hx).1
  · rw [Function.update_of_ne hkey] at hne ⊢
    have hsame : (if s.streams pubkeyHex = some stream then
        Function.update s.streams pubkeyHex
          ((survivorOf ((s.agentStreams pubkeyHex).eraseP fun e => e.stream = stream)).map
            StreamEntry.stream)
        else s.streams) key = s.streams key := by
      split
      · rw [Function.update_of_ne hkey]
      · rfl
    rw [hsame]
    exact ht key hne

theorem deliver_streams {fallback : List Output} {a : Attempt}
    (h : a.encodes = true → (s.streams pubkeyHex).isSome → a.sends = true) :
    (deliver fallback s pubkeyHex a).streams = s.streams := by
  unfold deliver
  split
  · rfl
  next hencodes =>
    split
    next stream hentry =>
      rw [if_pos (h (by simpa using hencodes) (by rw [hentry]; rfl))]
    next => rfl

theorem Targeted.deliver (ht : Targeted s) {fallback : List Output} {a : Attempt}
    (h : a.encodes = true → (s.streams pubkeyHex).isSome → a.sends = true) :
    Targeted (deliver fallback s pubkeyHex a) := by
  intro key hne
  obtain ⟨-, hstreams, -⟩ := deliver_recorded fallback s pubkeyHex a
  rw [hstreams] at hne ⊢
  rw [deliver_streams h]
  exact ht key hne

theorem Targeted.step (hr : Recorded s) (ht : Targeted s) {e : StreamEvent}
    (hsend : SendSucceeds s e) : Targeted (streamStep s e) := by
  cases e with
  | auth stream pubkeyHex visiting =>
    simp only [streamStep]
    split
    next hnew => exact ht.authenticate hr hnew pubkeyHex visiting
    next => exact ht
    next => exact ht
  | close stream =>
    simp only [streamStep]
    split
    next => exact ht
    next => exact ht.closeStream hr _ _ _
    next => exact ht
  | deliverOrEnqueue pubkeyHex a => exact ht.deliver hsend
  | deliverFrostSealed pubkeyHex a => exact ht.deliver hsend

theorem Targeted.tracks (hr : Recorded s) (ht : Targeted s) :
    RegistrationTracks s := by
  intro pubkeyHex hopen
  obtain ⟨e, he, hentry, honly⟩ := ht pubkeyHex (hr.openFor_iff.1 hopen)
  refine ⟨e.stream, e.visiting, hentry, (hr.mem_iff pubkeyHex e).1 he, ?_⟩
  rintro ⟨home, hhome⟩
  by_contra hv
  have hvisiting := honly (by simpa using hv) ⟨home, false⟩
    ((hr.mem_iff pubkeyHex ⟨home, false⟩).2 hhome)
  simp at hvisiting

/-! ### The offline presence -/

theorem agentHomeSeen_step (hr : Recorded s) (e : StreamEvent)
    (hseen : s.agentHomeSeen pubkeyHex = true) (hopen : OpenFor (streamStep s e) pubkeyHex) :
    (streamStep s e).agentHomeSeen pubkeyHex = true := by
  have hr' := hr.step e
  rw [hr'.openFor_iff] at hopen
  cases e with
  | auth stream key visiting =>
    simp only [streamStep]
    split
    · simp only [authenticate]
      split
      · by_cases hkey : pubkeyHex = key
        · simp [hkey]
        · simpa [Function.update_of_ne hkey] using hseen
      · exact hseen
    · exact hseen
    · exact hseen
  | close stream =>
    simp only [streamStep] at hopen ⊢
    split at hopen
    next => exact hseen
    next key visiting hclose =>
      obtain ⟨-, hstreams⟩ := closeStream_recorded s stream key visiting
      rw [hstreams] at hopen
      unfold closeStream
      cases hsurvivor : survivorOf ((s.agentStreams key).eraseP fun e => e.stream = stream) with
      | some survivor => simpa only [hsurvivor] using hseen
      | none =>
        by_cases hkey : pubkeyHex = key
        · subst hkey
          rw [Function.update_self, survivorOf_eq_none.1 hsurvivor] at hopen
          exact absurd rfl hopen
        · simpa only [hsurvivor, Function.update_of_ne hkey] using hseen
    next => exact hseen
  | deliverOrEnqueue key a =>
    rw [streamStep, deliverOrEnqueue, (deliver_recorded _ s key a).2.2]
    exact hseen
  | deliverFrostSealed key a =>
    rw [streamStep, deliverFrostSealed, (deliver_recorded _ s key a).2.2]
    exact hseen

theorem agentHomeSeen_since {events : List StreamEvent} {k m : ℕ} {home : StreamId}
    (hauth : events[k]? = some (.auth home pubkeyHex false))
    (hnew : (registryAt events k).handlers home = .connected) (hkm : k + 1 ≤ m)
    (hm : m ≤ events.length) (hopen : ∀ j, k < j → j ≤ m → OpenFor (registryAt events j) pubkeyHex) :
    (registryAt events m).agentHomeSeen pubkeyHex = true := by
  induction m, hkm using Nat.le_induction with
  | base =>
    rw [registryAt_succ hauth]
    simp [streamStep, hnew, authenticate]
  | succ m hkm ih =>
    have hseen := ih (by omega) (fun j hj hjm => hopen j hj (by omega))
    obtain ⟨e, he⟩ : ∃ e, events[m]? = some e := ⟨events[m], List.getElem?_eq_getElem (by omega)⟩
    have hnext := hopen (m + 1) (by omega) (Nat.le_refl _)
    rw [registryAt_succ he] at hnext ⊢
    exact agentHomeSeen_step (recorded_registryAt events m) e hseen hnext

theorem closeStream_offline {visiting : Bool} (hentry : s.streams pubkeyHex = some stream)
    (hseen : s.agentHomeSeen pubkeyHex = true)
    (hlast : (closeStream s stream pubkeyHex visiting).agentStreams pubkeyHex = []) :
    (closeStream s stream pubkeyHex visiting).outputs = s.outputs ++ [.offline pubkeyHex] := by
  rw [(closeStream_recorded s stream pubkeyHex visiting).2, Function.update_self] at hlast
  simp only [closeStream, hlast, survivorOf_eq_none.2, hentry, hseen, Bool.or_true, and_self,
    if_true]

/-- **Registration follows the open streams.**  In a run in which no delivery to a registered
stream throws, every state registers each agent with an open stream of its own, a home stream where
there is one, and the close of the last stream after a home stream writes the offline presence. -/
theorem registration_tracks_open_streams (events : List StreamEvent)
    (hsend : Guarded streamStep SendSucceeds Registry.init events) (m : ℕ) :
    RegistrationTracks (registryAt events m) ∧
      ∀ pubkeyHex, ClosesLast events m pubkeyHex →
        (registryAt events (m + 1)).outputs =
          (registryAt events m).outputs ++ [.offline pubkeyHex] := by
  have hinv : Recorded (registryAt events m) ∧ Targeted (registryAt events m) :=
    hsend.invariant (P := fun s => Recorded s ∧ Targeted s)
      (fun s e hs he => ⟨hs.1.step e, hs.2.step hs.1 he⟩)
      ⟨recorded_init, fun key hne => absurd rfl hne⟩ m
  obtain ⟨hr, ht⟩ := hinv
  refine ⟨ht.tracks hr, ?_⟩
  intro pubkeyHex hlast
  obtain ⟨stream, visiting, hclose, hopen⟩ := hlast.close
  obtain ⟨k, home, hkm, hauth, hnew, hsince⟩ := hlast.home
  have hmlen : m < events.length := (List.getElem?_eq_some_iff.1 hclose).1
  have hseen := agentHomeSeen_since hauth hnew hkm (Nat.le_of_lt hmlen) hsince
  have hgone := hlast.last
  have hstep : registryAt events (m + 1) =
      closeStream (registryAt events m) stream pubkeyHex visiting := by
    rw [registryAt_succ hclose]
    simp only [streamStep, hopen]
  rw [hstep] at hgone ⊢
  rw [(hr.closeStream hopen).openFor_iff, not_not] at hgone
  refine closeStream_offline ?_ hseen hgone
  -- the target is the stream that closes: it is the only one open
  obtain ⟨e, he, hentry, -⟩ := ht pubkeyHex
    (List.ne_nil_of_mem ((hr.mem_iff pubkeyHex ⟨stream, visiting⟩).2 hopen))
  by_contra hother
  have hstays : e ∈ (closeStream (registryAt events m) stream pubkeyHex visiting).agentStreams
      pubkeyHex := by
    rw [(closeStream_recorded _ stream pubkeyHex visiting).2, Function.update_self,
      mem_eraseP_stream (hr.nodup pubkeyHex)]
    refine ⟨he, ?_⟩
    rintro rfl
    exact hother hentry
  rw [hgone] at hstays
  simp at hstays

namespace Sample

/-- A home and a visiting stream of one agent, a delivery between them, and both closed. -/
def twoStreams : List StreamEvent :=
  [.auth 0 "aa" false, .auth 1 "aa" true, .deliverOrEnqueue "aa" ⟨true, true⟩, .close 0, .close 1]

/-- Two home streams, a delivery whose send throws, and both closed. -/
def deadSend : List StreamEvent :=
  [.auth 0 "aa" false, .auth 1 "aa" false, .deliverOrEnqueue "aa" ⟨true, false⟩, .close 0, .close 1]

theorem closesLast {events : List StreamEvent}
    (h : events = twoStreams ∨ events = deadSend) : ClosesLast events 4 "aa" := by
  refine ⟨⟨1, events = twoStreams, ?_, ?_⟩, ?_, 0, 0, by omega, ?_, ?_, ?_⟩
  · rcases h with rfl | rfl <;> rfl
  · rcases h with rfl | rfl <;> rfl
  · rw [(recorded_registryAt events 5).openFor_iff, not_not]
    rcases h with rfl | rfl <;> rfl
  · rcases h with rfl | rfl <;> rfl
  · rcases h with rfl | rfl <;> rfl
  · intro j hj hjm
    rw [(recorded_registryAt events j).openFor_iff]
    obtain rfl | rfl | rfl | rfl : j = 1 ∨ j = 2 ∨ j = 3 ∨ j = 4 := by omega
    all_goals rcases h with rfl | rfl <;> decide

end Sample

theorem registration_tracks_two_streams :
    ClosesLast Sample.twoStreams 4 "aa" ∧
      (registryAt Sample.twoStreams 5).outputs =
        (registryAt Sample.twoStreams 4).outputs ++ [.offline "aa"] := by
  have hlast : ClosesLast Sample.twoStreams 4 "aa" := Sample.closesLast (Or.inl rfl)
  refine ⟨hlast, (registration_tracks_open_streams Sample.twoStreams ?_ 4).2 "aa" hlast⟩
  simp [Sample.twoStreams, Guarded, SendSucceeds]

/-- After a send that throws, two open home streams are registered nowhere, and closing both writes
no offline presence. -/
theorem dead_send_deregisters :
    ¬RegistrationTracks (registryAt Sample.deadSend 3) ∧ ClosesLast Sample.deadSend 4 "aa" ∧
      Output.offline "aa" ∉ (registryAt Sample.deadSend 5).outputs := by
  refine ⟨fun h => ?_, Sample.closesLast (Or.inr rfl), by decide⟩
  obtain ⟨stream, visiting, hentry, -⟩ := h "aa" ⟨0, false, rfl⟩
  have hnone : (registryAt Sample.deadSend 3).streams "aa" = none := rfl
  rw [hnone] at hentry
  exact absurd hentry (by simp)

end Cello.Directory.Signaling
