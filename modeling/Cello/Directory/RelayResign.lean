import Cello.Lib.GuardedRun
import Cello.Lib.JsText

/-!
# Signing a relay manifest again

`packages/directory/src/relay-pool-manager.ts`.  When a relay registers, the node downloads the manifest, changes or
adds the relay's entry, and signs and uploads it.  `loadManifest` verifies what it downloads; `reSignManifestForRelay`
downloads by itself and does not.  So what the node signs is what some signed manifest says, but for the relay's own
entry, as long as the storage gives it what was signed (`reSign_keeps`); and it signs whatever else the storage gives
it (`unsigned_manifest_signed`).

A manifest is any JSON value.  What is signed is the text of its relays, its time and its version; a signature is
valid just for what was signed.
-/

namespace Cello.Directory.RelayResign

open Lib

/-! ### JSON objects -/

/-- `v[key]`; `none` is `undefined`. -/
def get (v : JsonText) (key : String) : Option JsonText :=
  match v with
  | .obj members => members.lookup key
  | _ => none

def setMember (key : String) (value : JsonText) : List (String × JsonText) → List (String × JsonText)
  | [] => [(key, value)]
  | (k, v) :: rest => if k = key then (k, value) :: rest else (k, v) :: setMember key value rest

/-- `v[key] = value`, of an object. -/
def set (v : JsonText) (key : String) (value : JsonText) : JsonText :=
  match v with
  | .obj members => .obj (setMember key value members)
  | v => v

def double (q : ℚ) : ℚ := if 0 ≤ q then Number.nearest q else - Number.nearest (-q)

/-- `v + 1`, as it is written. -/
def plusOne : Option JsonText → JsonText
  | some (.num q) => .num (double (q + 1))
  | some (.bool b) => .num (if b then 2 else 1)
  | some .null => .num 1
  | some (.str s) => .str (s ++ "1")
  | some v => .str (v.parse.toText ++ "1")
  -- `NaN`
  | none => .null

/-! ### Signing again -/

/-- `buildCanonicalPayload`; what is undefined is not written. -/
def buildCanonicalPayload (manifest : JsonText) : JsonText :=
  .obj (["relays", "updatedAt", "version"].filterMap fun key => (get manifest key).map (key, ·))

structure Params where
  relayId : String
  healthCheckUrl : String
  region : Option String
  multiaddr : Option String

/-- The regular expressions on a multiaddr. -/
structure Multiaddrs where
  /-- `/\/p2p\/(.+)$/`. -/
  peerId : String → Option String
  /-- `multiaddrToWsEndpoint`. -/
  wsEndpoint : String → String

def isOwn (relayId : String) (r : JsonText) : Bool :=
  match get r "relayId" with
  | some (.str id) => decide (id = relayId)
  | _ => false

/-- A text that is there and not empty. -/
def present (s : Option String) : Option String := s.filter fun s => decide (s ≠ "")

/-- What a registration changes of an entry: never the address. -/
def updateEntry (p : Params) (entry : JsonText) : JsonText :=
  let entry := set entry "healthCheckUrl" (.str p.healthCheckUrl)
  match present p.region with
  | some region => set entry "region" (.str region)
  | none => entry

/-- The entry of a relay that is not in the manifest; `none` where there is no address to add it with. -/
def addedEntry (addrs : Multiaddrs) (p : Params) : Option JsonText := do
  let multiaddr ← present p.multiaddr
  let peerId ← present (addrs.peerId multiaddr)
  some (.obj [("relayId", .str p.relayId), ("endpoint", .str (addrs.wsEndpoint multiaddr)),
    ("region", .str (p.region.getD "unknown")), ("status", .str "active"),
    ("healthCheckUrl", .str p.healthCheckUrl), ("peerId", .str peerId), ("multiaddrs", .arr [.str multiaddr])])

/-- The relays behind the registration; `none` where it throws, as it does on a `null` before the relay's entry. -/
def register (addrs : Multiaddrs) (p : Params) : List JsonText → Option (List JsonText)
  | [] => (addedEntry addrs p).map ([·])
  | .null :: _ => none
  | r :: rest =>
    if isOwn p.relayId r then some (updateEntry p r :: rest) else (register addrs p rest).map (r :: ·)

/-- What is signed for a download, before its signature is set; `none` where it throws. -/
def reSigned (addrs : Multiaddrs) (p : Params) (updatedAt : String) (manifest : JsonText) : Option JsonText :=
  match get manifest "relays" with
  | some (.arr relays) => (register addrs p relays).map fun relays =>
      let manifest := set manifest "relays" (.arr relays)
      let manifest := set manifest "version" (plusOne (get manifest "version"))
      set manifest "updatedAt" (.str updatedAt)
  | _ => none

/-! ### Runs -/

structure Node where
  /-- What the pinned key has signed. -/
  signed : List JsonText
  relayHealthCheckUrls : String → Option String
  relayMultiaddrs : String → Option String

def Node.start (signed : List JsonText) : Node := ⟨signed, fun _ => none, fun _ => none⟩

inductive Event where
  /-- The pinned key signs a manifest elsewhere. -/
  | sign (manifest : JsonText)
  /-- `loadManifest`, by a poll or not: it may forget relays, and signs nothing. -/
  | load (forgets : String → Bool)
  /-- `reSignManifestForRelay`, with what the storage gives it at that moment, whether the node's key is the pinned
  one, and whether the storage takes the upload; `none` where the download fails or is no JSON. -/
  | reSign (p : Params) (download : Option JsonText) (updatedAt : String) (pinnedKey uploaded : Bool)

/-- The check for `no_change`. -/
def Node.unchanged (s : Node) (p : Params) : Prop :=
  s.relayHealthCheckUrls p.relayId = some p.healthCheckUrl ∧ s.relayMultiaddrs p.relayId = p.multiaddr

instance (s : Node) (p : Params) : Decidable (s.unchanged p) := inferInstanceAs (Decidable (_ ∧ _))

/-- What an event signs and uploads. -/
def uploads (addrs : Multiaddrs) (s : Node) : Event → Option JsonText
  | .sign _ | .load _ => none
  | .reSign p download updatedAt _ _ =>
    if s.unchanged p then none else download.bind (reSigned addrs p updatedAt)

def Node.step (addrs : Multiaddrs) (s : Node) (e : Event) : Node :=
  match e, uploads addrs s e with
  | .sign manifest, _ => { s with signed := buildCanonicalPayload manifest :: s.signed }
  | .load forgets, _ =>
    { s with
      relayHealthCheckUrls := fun id => if forgets id then none else s.relayHealthCheckUrls id
      relayMultiaddrs := fun id => if forgets id then none else s.relayMultiaddrs id }
  | .reSign .., none => s
  | .reSign p _ _ pinnedKey uploaded, some manifest =>
    { signed := if pinnedKey then buildCanonicalPayload manifest :: s.signed else s.signed
      relayHealthCheckUrls := fun id =>
        if uploaded ∧ id = p.relayId then some p.healthCheckUrl else s.relayHealthCheckUrls id
      relayMultiaddrs := fun id =>
        if uploaded ∧ id = p.relayId ∧ (present p.multiaddr).isSome then p.multiaddr else s.relayMultiaddrs id }

/-! ### The law -/

def SameButOwn (relayId : String) (relays relays' : List JsonText) : Prop :=
  ∃ before own own' after, relays = before ++ own :: after ∧ relays' = before ++ own' :: after ∧
    isOwn relayId own = true ∧ ∀ key, key ≠ "healthCheckUrl" → key ≠ "region" → get own' key = get own key

def OneNew (relayId : String) (relays relays' : List JsonText) : Prop :=
  ∃ own, relays' = relays ++ [own] ∧ isOwn relayId own = true ∧ ∀ r ∈ relays, isOwn relayId r = false

def Within (relayId : String) (manifest manifest' : JsonText) : Prop :=
  get manifest' "version" = some (plusOne (get manifest "version")) ∧
    (∀ key, key ∉ ["relays", "version", "updatedAt"] → get manifest' key = get manifest key) ∧
    ∃ relays relays', get manifest "relays" = some (.arr relays) ∧ get manifest' "relays" = some (.arr relays') ∧
      (SameButOwn relayId relays relays' ∨ OneNew relayId relays relays')

/-- An event uploads what no registration of its relay makes of a signed manifest. -/
def Launders (addrs : Multiaddrs) (s : Node) (e : Event) : Prop :=
  ∃ p download updatedAt pinnedKey uploaded manifest', e = .reSign p download updatedAt pinnedKey uploaded ∧
    uploads addrs s e = some manifest' ∧
    ¬ ∃ manifest, buildCanonicalPayload manifest ∈ s.signed ∧ Within p.relayId manifest manifest'

/-- The storage gives a re-sign that has something to change a manifest that is signed. -/
def DownloadsSigned (s : Node) : Event → Prop
  | .sign _ | .load _ => True
  | .reSign p download _ _ _ =>
    ¬ s.unchanged p → ∀ manifest, download = some manifest → buildCanonicalPayload manifest ∈ s.signed

/-! ### Members of an object -/

theorem lookup_setMember (key : String) (value : JsonText) (members : List (String × JsonText)) :
    (setMember key value members).lookup key = some value := by
  induction members with
  | nil => simp [setMember]
  | cons m rest ih =>
    obtain ⟨k, v⟩ := m
    rw [setMember]
    by_cases hk : k = key
    · subst hk
      rw [if_pos rfl, List.lookup_cons_self]
    · rw [if_neg hk, List.lookup_cons, beq_eq_false_iff_ne.2 (Ne.symm hk), ih]

theorem lookup_setMember_of_ne {key key' : String} (hne : key' ≠ key) (value : JsonText)
    (members : List (String × JsonText)) : (setMember key value members).lookup key' = members.lookup key' := by
  induction members with
  | nil => rw [setMember, List.lookup_cons, beq_eq_false_iff_ne.2 hne]
  | cons m rest ih =>
    obtain ⟨k, v⟩ := m
    rw [setMember]
    by_cases hk : k = key
    · subst hk
      rw [if_pos rfl, List.lookup_cons, List.lookup_cons, beq_eq_false_iff_ne.2 hne]
    · rw [if_neg hk, List.lookup_cons, List.lookup_cons, ih]

theorem get_set {v : JsonText} {key₀ : String} {j : JsonText} (hobj : get v key₀ = some j) (key : String)
    (value : JsonText) : get (set v key value) key = some value := by
  cases v with
  | obj members => exact lookup_setMember key value members
  | _ => cases hobj

theorem get_set_of_ne {key key' : String} (hne : key' ≠ key) (v value : JsonText) :
    get (set v key value) key' = get v key' := by
  cases v with
  | obj members => exact lookup_setMember_of_ne hne value members
  | _ => rfl

/-! ### What a registration changes -/

theorem get_updateEntry (p : Params) (entry : JsonText) {key : String} (hurl : key ≠ "healthCheckUrl")
    (hregion : key ≠ "region") : get (updateEntry p entry) key = get entry key := by
  unfold updateEntry
  dsimp only
  split
  · rw [get_set_of_ne hregion, get_set_of_ne hurl]
  · rw [get_set_of_ne hurl]

theorem isOwn_addedEntry {addrs : Multiaddrs} {p : Params} {own : JsonText} (h : addedEntry addrs p = some own) :
    isOwn p.relayId own = true := by
  unfold addedEntry at h
  obtain ⟨multiaddr, -, h⟩ := Option.bind_eq_some_iff.1 h
  obtain ⟨peerId, -, h⟩ := Option.bind_eq_some_iff.1 h
  cases h
  simp [isOwn, get]

theorem register_cons {addrs : Multiaddrs} {p : Params} {r : JsonText} (hnull : r ≠ .null) (rest : List JsonText) :
    register addrs p (r :: rest) =
      if isOwn p.relayId r then some (updateEntry p r :: rest) else (register addrs p rest).map (r :: ·) := by
  cases r with
  | null => exact absurd rfl hnull
  | _ => rfl

theorem of_register {addrs : Multiaddrs} {p : Params} {relays relays' : List JsonText}
    (h : register addrs p relays = some relays') :
    SameButOwn p.relayId relays relays' ∨ OneNew p.relayId relays relays' := by
  induction relays generalizing relays' with
  | nil =>
    obtain ⟨own, hown, rfl⟩ := Option.map_eq_some_iff.1 h
    exact .inr ⟨own, rfl, isOwn_addedEntry hown, by rintro _ ⟨⟩⟩
  | cons r rest ih =>
    by_cases hnull : r = .null
    · rw [hnull] at h
      cases h
    rw [register_cons hnull] at h
    by_cases hr : isOwn p.relayId r = true
    · rw [if_pos hr] at h
      cases h
      exact .inl ⟨[], r, updateEntry p r, rest, rfl, rfl, hr, fun key => get_updateEntry p r⟩
    · rw [if_neg hr] at h
      obtain ⟨rest', hrest, rfl⟩ := Option.map_eq_some_iff.1 h
      rcases ih hrest with ⟨before, own, own', after, rfl, rfl, hown, hkeys⟩ | ⟨own, rfl, hown, hnone⟩
      · exact .inl ⟨r :: before, own, own', after, rfl, rfl, hown, hkeys⟩
      · refine .inr ⟨own, rfl, hown, fun r' hr' => ?_⟩
        rcases List.mem_cons.1 hr' with rfl | hr'
        · exact Bool.eq_false_iff.2 hr
        · exact hnone r' hr'

theorem within_of_reSigned {addrs : Multiaddrs} {p : Params} {updatedAt : String} {manifest manifest' : JsonText}
    (h : reSigned addrs p updatedAt manifest = some manifest') : Within p.relayId manifest manifest' := by
  unfold reSigned at h
  split at h
  · rename_i relays hrelays
    obtain ⟨relays', hregister, rfl⟩ := Option.map_eq_some_iff.1 h
    have hset : get (set manifest "relays" (.arr relays')) "relays" = some (.arr relays') := get_set hrelays _ _
    refine ⟨?_, fun key hkey => ?_, relays, relays', hrelays, ?_, of_register hregister⟩
    · rw [get_set_of_ne (by decide), get_set hset, get_set_of_ne (by decide)]
    · have hne : key ≠ "relays" ∧ key ≠ "version" ∧ key ≠ "updatedAt" := by
        simpa using hkey
      rw [get_set_of_ne hne.2.2, get_set_of_ne hne.2.1, get_set_of_ne hne.1]
    · rw [get_set_of_ne (by decide), get_set_of_ne (by decide), hset]
  · cases h

theorem not_launders {addrs : Multiaddrs} {s : Node} {e : Event} (h : DownloadsSigned s e) : ¬ Launders addrs s e := by
  rintro ⟨p, download, updatedAt, pinnedKey, uploaded, manifest', rfl, huploads, hnot⟩
  change (if s.unchanged p then none else download.bind (reSigned addrs p updatedAt)) = some manifest' at huploads
  by_cases hchanged : s.unchanged p
  · rw [if_pos hchanged] at huploads
    cases huploads
  · rw [if_neg hchanged] at huploads
    obtain ⟨manifest, hdownload, hsigned⟩ := Option.bind_eq_some_iff.1 huploads
    exact hnot ⟨manifest, h hchanged manifest hdownload, within_of_reSigned hsigned⟩

/-- **Where the storage gives back what was signed, no upload of a run launders a manifest.** -/
theorem reSign_keeps (addrs : Multiaddrs) (signed : List JsonText) (events : List Event)
    (h : Guarded (Node.step addrs) DownloadsSigned (.start signed) events) {n : ℕ} {e : Event}
    (he : events[n]? = some e) : ¬ Launders addrs ((events.take n).foldl (Node.step addrs) (.start signed)) e :=
  not_launders (h.at he)

/-! ### A run -/

namespace Run

def addrs : Multiaddrs where
  peerId s := if s = "/ip4/10.0.0.1/tcp/4001/ws/p2p/12D3" then some "12D3" else none
  wsEndpoint s := if s = "/ip4/10.0.0.1/tcp/4001/ws/p2p/12D3" then "ws://10.0.0.1:4001" else ""

def params : Params := ⟨"r1", "http://10.0.0.1/health", none, some "/ip4/10.0.0.1/tcp/4001/ws/p2p/12D3"⟩

def manifest (relays : List JsonText) : JsonText :=
  .obj [("relays", .arr relays), ("updatedAt", .str "2026-08-08T00:00:00.000Z"), ("version", .num 4)]

/-- A relay that nobody signed. -/
def foreign : JsonText :=
  .obj [("relayId", .str "x"), ("endpoint", .str "ws://203.0.113.9:4001"), ("region", .str "unknown"),
    ("status", .str "active"), ("healthCheckUrl", .str "http://203.0.113.9/health"), ("peerId", .str "12D4")]

def reSign (download : JsonText) : Event := .reSign params (some download) "2026-08-09T00:00:00.000Z" true true

/-- The same relay, with its health check elsewhere. -/
def moved : Params := { params with healthCheckUrl := "http://10.0.0.1/healthz" }

/-- What the first registration uploads. -/
def registered : JsonText :=
  .obj [("relays", .arr [.obj [("relayId", .str "r1"), ("endpoint", .str "ws://10.0.0.1:4001"),
      ("region", .str "unknown"), ("status", .str "active"), ("healthCheckUrl", .str "http://10.0.0.1/health"),
      ("peerId", .str "12D3"), ("multiaddrs", .arr [.str "/ip4/10.0.0.1/tcp/4001/ws/p2p/12D3"])]]),
    ("updatedAt", .str "2026-08-09T00:00:00.000Z"), ("version", plusOne (some (.num 4)))]

/-- A poll, the registration of the relay, and another that changes its entry. -/
def events : List Event :=
  [.load fun _ => false, reSign (manifest []), .reSign moved (some registered) "2026-08-10T00:00:00.000Z" true true]

def start : Node := .start [buildCanonicalPayload (manifest [])]

theorem uploads_first : uploads addrs (Node.step addrs start (.load fun _ => false)) (reSign (manifest [])) =
    some registered := by
  rw [reSign, uploads, if_neg (by decide)]
  rfl

theorem guarded : Guarded (Node.step addrs) DownloadsSigned start events := by
  refine ⟨trivial, fun _ m hm => ?_, fun _ m hm => ?_, trivial⟩
  · cases hm
    exact List.mem_singleton.2 rfl
  · obtain rfl := Option.some.inj hm
    have hstep : (Node.step addrs (Node.step addrs start (.load fun _ => false)) (reSign (manifest []))).signed =
        buildCanonicalPayload registered :: start.signed := rfl
    rw [hstep]
    exact List.mem_cons_self

end Run

/-- The third event changes the entry that the second has added. -/
theorem reSign_keeps_of_update :
    uploads Run.addrs ((Run.events.take 1).foldl (Node.step Run.addrs) Run.start) (Run.reSign (Run.manifest [])) =
        some Run.registered ∧
      (uploads Run.addrs ((Run.events.take 2).foldl (Node.step Run.addrs) Run.start)
        (.reSign Run.moved (some Run.registered) "2026-08-10T00:00:00.000Z" true true)).isSome ∧
      ¬ Launders Run.addrs ((Run.events.take 2).foldl (Node.step Run.addrs) Run.start)
        (.reSign Run.moved (some Run.registered) "2026-08-10T00:00:00.000Z" true true) := by
  refine ⟨Run.uploads_first, ?_, reSign_keeps Run.addrs _ _ Run.guarded (n := 2) rfl⟩
  rw [uploads, if_neg (by decide)]
  rfl

theorem get_relays_buildCanonicalPayload (m : JsonText) : get (buildCanonicalPayload m) "relays" = get m "relays" := by
  change (["relays", "updatedAt", "version"].filterMap fun key => (get m key).map (key, ·)).lookup "relays" = _
  cases hrelays : get m "relays" <;> cases hupdated : get m "updatedAt" <;> cases hversion : get m "version" <;>
    simp [hrelays, hupdated, hversion]

theorem length_le_of_within {relayId : String} {m m' : JsonText} {relays relays' : List JsonText}
    (h : Within relayId m m') (hm : get m "relays" = some (.arr relays)) (hm' : get m' "relays" = some (.arr relays')) :
    relays'.length ≤ relays.length + 1 := by
  obtain ⟨-, -, l, l', hl, hl', hsame⟩ := h
  obtain rfl : l = relays := JsonText.arr.inj (Option.some.inj (hl.symm.trans hm))
  obtain rfl : l' = relays' := JsonText.arr.inj (Option.some.inj (hl'.symm.trans hm'))
  rcases hsame with ⟨before, own, own', after, rfl, rfl, -, -⟩ | ⟨own, rfl, -, -⟩
  · simp
  · simp

theorem uploads_of_register {addrs : Multiaddrs} {s : Node} {p : Params} {manifest : JsonText}
    {relays relays' : List JsonText} (hchanged : ¬ s.unchanged p) (hrelays : get manifest "relays" = some (.arr relays))
    (hregister : register addrs p relays = some relays') (updatedAt : String) (pinnedKey uploaded : Bool) :
    ∃ manifest', uploads addrs s (.reSign p (some manifest) updatedAt pinnedKey uploaded) = some manifest' ∧
      get manifest' "relays" = some (.arr relays') := by
  rw [uploads, if_neg hchanged, Option.bind_some, reSigned, hrelays]
  dsimp only
  rw [hregister]
  refine ⟨_, rfl, ?_⟩
  rw [get_set_of_ne (by decide), get_set_of_ne (by decide), get_set hrelays]

/-- **The node signs what the storage gives it.**  Nobody signed a manifest with a relay.  The storage gives one with a
foreign relay to a re-sign, and the node adds the relay that registers and signs both. -/
theorem unsigned_manifest_signed : ¬ ∀ (addrs : Multiaddrs) (signed : List JsonText) (events : List Event) (n : ℕ)
    (e : Event), events[n]? = some e →
      ¬ Launders addrs ((events.take n).foldl (Node.step addrs) (.start signed)) e := by
  intro h
  refine h Run.addrs [buildCanonicalPayload (Run.manifest [])] [Run.reSign (Run.manifest [Run.foreign])] 0 _ rfl ?_
  obtain ⟨own, hown⟩ : ∃ own, addedEntry Run.addrs Run.params = some own := ⟨_, rfl⟩
  have hregister : register Run.addrs Run.params [Run.foreign] = some [Run.foreign, own] := by
    rw [register_cons (by rintro ⟨⟩), if_neg (by decide), register, hown]
    rfl
  obtain ⟨manifest', huploads, hrelays'⟩ := uploads_of_register (s := .start [buildCanonicalPayload (Run.manifest [])])
    (fun h => nomatch h.1) (show get (Run.manifest [Run.foreign]) "relays" = some (.arr [Run.foreign]) from rfl)
    hregister "2026-08-09T00:00:00.000Z" true true
  refine ⟨Run.params, some (Run.manifest [Run.foreign]), "2026-08-09T00:00:00.000Z", true, true, manifest', rfl,
    huploads, ?_⟩
  rintro ⟨m, hm, hwithin⟩
  have hm : buildCanonicalPayload m = buildCanonicalPayload (Run.manifest []) := List.mem_singleton.1 hm
  have hrelays : get m "relays" = some (.arr []) := by
    rw [← get_relays_buildCanonicalPayload, hm]
    rfl
  exact absurd (length_le_of_within hwithin hrelays hrelays') (Nat.lt_irrefl 1)

end Cello.Directory.RelayResign
