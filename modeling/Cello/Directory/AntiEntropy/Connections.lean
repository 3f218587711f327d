import Cello.Directory.AntiEntropy.Ends
import Cello.Lib.GuardedRun

/-!
# Connections between nodes

Any number of connections, each with an honest node at the end that is looked at; at the other end is
whoever holds the wire, who drops, repeats, mixes and makes up frames as it likes.  A connection knows the
peer id of its other end from the transport.  Every signature that is made with any key is in a log, and
three things do not happen (`Allowed`): a signature verifies and is not in the log, a nonce is drawn that
has been signed before, and the key of an honest node signs a text of this channel elsewhere.

A manifest is taken as `file-directory-manifest-store.ts` has verified it: no two entries have the same
key, so the entry with a node's key is the node's own (`Consortium.Pins`).
-/

namespace Cello.Directory.AntiEntropy

open Lib

/-- The honest nodes. -/
structure Consortium (ι : Type) where
  identity : ι → NodeIdentity
  pubkey : ι → String

def Consortium.Pins {ι : Type} (C : Consortium ι) (manifest : ConsortiumManifest) : Prop :=
  ∀ entry ∈ manifest.nodes, ∀ node, entry.pubkey = some (C.pubkey node) →
    entry.nodeId = (C.identity node).nodeId

/-- The loop of `#readVerified` in `file-directory-manifest-store.ts` over one field: no entry lacks it,
where it is required, and no two have the same. -/
def distinctIn (required : Bool) (field : ManifestNode → Option String) :
    List ManifestNode → List String → Bool
  | [], _ => true
  | node :: rest, seen =>
    match present (field node) with
    | none => !required && distinctIn required field rest seen
    | some value => decide (value ∉ seen) && distinctIn required field rest (value :: seen)

def distinctIdentities (manifest : ConsortiumManifest) : Bool :=
  distinctIn true (fun n => some n.nodeId) manifest.nodes [] &&
    distinctIn true ManifestNode.pubkey manifest.nodes [] &&
    distinctIn false ManifestNode.peerId manifest.nodes []

theorem eq_of_distinctIn {field : ManifestNode → Option String} : ∀ {nodes : List ManifestNode}
    {seen : List String}, distinctIn true field nodes seen = true →
    (∀ a ∈ nodes, ∀ v ∈ field a, v ∉ seen) ∧ ∀ a ∈ nodes, ∀ b ∈ nodes, field a = field b → a = b := by
  intro nodes
  induction nodes with
  | nil => exact fun _ => ⟨fun a ha => (by cases ha), fun a ha => (by cases ha)⟩
  | cons node rest ih =>
    intro seen h
    rw [distinctIn] at h
    split at h
    · cases h
    · rename_i value hvalue
      obtain ⟨hnew, hrest⟩ := Bool.and_eq_true_iff.1 h
      obtain ⟨hunseen, heq⟩ := ih hrest
      have hfield : field node = some value := present_eq_some hvalue
      have hother : ∀ a ∈ rest, field a ≠ some value := fun a ha hv =>
        hunseen a ha value hv List.mem_cons_self
      refine ⟨fun a ha v hv => ?_, fun a ha b hb hab => ?_⟩
      · obtain rfl | ha := List.mem_cons.1 ha
        · rw [hfield] at hv
          cases hv
          exact of_decide_eq_true hnew
        · exact fun hseen => hunseen a ha v hv (List.mem_cons_of_mem _ hseen)
      · obtain rfl | ha' := List.mem_cons.1 ha
        · obtain rfl | hb' := List.mem_cons.1 hb
          · rfl
          · exact absurd (hab.symm.trans hfield) (hother b hb')
        · obtain rfl | hb' := List.mem_cons.1 hb
          · exact absurd (hab.trans hfield) (hother a ha')
          · exact heq a ha' b hb' hab

theorem Consortium.Pins.of_distinct {ι : Type} {C : Consortium ι} {manifest : ConsortiumManifest}
    (h : distinctIdentities manifest = true)
    (hown : ∀ node, (∃ entry ∈ manifest.nodes, entry.pubkey = some (C.pubkey node)) →
      ∃ own ∈ manifest.nodes, own.pubkey = some (C.pubkey node) ∧
        own.nodeId = (C.identity node).nodeId) : C.Pins manifest := by
  intro entry hentry node hpubkey
  obtain ⟨own, hmem, hkey, hnodeId⟩ := hown node ⟨entry, hentry, hpubkey⟩
  have hdistinct := (Bool.and_eq_true_iff.1 (Bool.and_eq_true_iff.1 h).1).2
  rw [← hnodeId, (eq_of_distinctIn hdistinct).2 entry hentry own hmem (hpubkey.trans hkey.symm)]

/-- The honest end of a connection, with the nonce that it has drawn and the signatures there were then. -/
structure Connection (ι α β : Type) where
  node : ι
  session : Session α β
  nonce : String
  drawnAt : ℕ

/-- A signature, and the connection that it was made for. -/
structure Signature (μ : Type) where
  key : String
  message : μ
  madeFor : Option ℕ
deriving DecidableEq

structure Net (ι α β μ : Type) where
  connections : ℕ → Option (Connection ι α β)
  log : List (Signature μ)

inductive NetEvent (ι σ μ : Type) where
  | dial (i : ℕ) (node : ι) (manifest : ConsortiumManifest) (remoteNodeId actualRemotePeerId : String)
      (timeoutMs : ℕ) (env : Surroundings σ)
  | accept (i : ℕ) (node : ι) (manifest : ConsortiumManifest) (actualRemotePeerId : String)
      (timeoutMs : ℕ)
  | receive (i : ℕ) (incoming : Incoming) (env : Surroundings σ)
  /-- A signature that is made elsewhere. -/
  | sign (key : String) (message : μ)

section

variable {ι σ α β μ : Type} (auth : PeerAuth μ) (C : Consortium ι)

def Connection.next (c : Connection ι α β) (session : Session α β) (nonce : String) (now : ℕ) :
    Connection ι α β :=
  if c.session.phase = .awaitHello then { c with session, nonce, drawnAt := now }
  else { c with session }

def Net.start : Net ι α β μ := ⟨fun _ => none, []⟩

def Net.connect (n : Net ι α β μ) (i : ℕ) (c : Connection ι α β) : Net ι α β μ :=
  match n.connections i with
  | some _ => n
  | none => { n with connections := Function.update n.connections i (some c) }

/-- One event. -/
def Net.step (sha : Sha256) (L : AeStoreView σ α β) (texts : List JsAny → List String)
    (n : Net ι α β μ) : NetEvent ι σ μ → Net ι α β μ
  | .dial i node manifest remoteNodeId actualRemotePeerId timeoutMs env =>
    n.connect i ⟨node, openDialer (C.identity node) manifest remoteNodeId actualRemotePeerId timeoutMs env,
      env.nonce, n.log.length⟩
  | .accept i node manifest actualRemotePeerId timeoutMs =>
    n.connect i ⟨node, openResponder (C.identity node) manifest actualRemotePeerId timeoutMs, "",
      n.log.length⟩
  | .receive i incoming env =>
    match n.connections i with
    | none => n
    | some c =>
      let r := AntiEntropy.receive auth sha L texts c.session env incoming
      { connections :=
          Function.update n.connections i (some (c.next r.session env.nonce n.log.length))
        log := n.log ++ r.signed.toList.map fun message => ⟨C.pubkey c.node, message, some i⟩ }
  | .sign key message => { n with log := n.log ++ [⟨key, message, none⟩] }

/-! ### What does not happen -/

def Net.Fresh (n : Net ι α β μ) (nonce : String) : Prop :=
  ∀ e ∈ n.log, ∀ p, auth.buildAePeerAuthTbs p = .ok e.message →
    p.nonceAHex ≠ nonce ∧ p.nonceBHex ≠ nonce

def Net.Unforged (n : Net ι α β μ) (incoming : Incoming) : Prop :=
  ∀ frame sig, incoming = .frame frame → frame.prop "sig" = .bytes sig →
    ∀ key p, auth.verifyAePeerAuth key p sig = true →
      ∃ e ∈ n.log, e.key = key ∧ auth.buildAePeerAuthTbs p = .ok e.message

def Net.Allowed (n : Net ι α β μ) : NetEvent ι σ μ → Prop
  | .dial _ _ manifest _ _ _ env => C.Pins manifest ∧ n.Fresh auth env.nonce
  | .accept _ _ manifest _ _ => C.Pins manifest
  | .receive i incoming env =>
    (∀ c, n.connections i = some c → c.session.phase = .awaitHello → n.Fresh auth env.nonce) ∧
      n.Unforged auth incoming
  | .sign key message =>
    ∀ node, key = C.pubkey node → ∀ p, auth.buildAePeerAuthTbs p ≠ .ok message

end

end Cello.Directory.AntiEntropy
