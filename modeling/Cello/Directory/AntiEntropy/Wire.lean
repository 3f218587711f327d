import Cello.Directory.AntiEntropy.TierB
import Cello.Lib.JsText

/-!
# Frames of the anti-entropy channel

How `packages/directory/src/ae-channel.ts` takes a frame from the wire.  What arrives is whatever the
other end sent; what is not of the form that is waited for ends the exchange with a protocol error.
-/

namespace Cello.Directory.AntiEntropy

open Lib

/-- What `wire.next()` comes to. -/
inductive Incoming where
  | frame (v : JsAny)
  /-- Bytes that the decoder throws on. -/
  | malformed (message : String)
  | closed
  /-- Nothing, until the deadline. -/
  | silent
  /-- The read fails, which `streamWire` of `ae-sync-service.ts` throws as a protocol error. -/
  | broken (message : String)

/-- `frame !== null && typeof frame === "object"`. -/
def isMap : JsAny → Bool
  | .null => false
  | v => decide (v.typeOf = "object")

/-- `frame["type"]`, where it is a string. -/
def frameType (v : JsAny) : Option String :=
  match v.prop "type" with
  | .str t => some t
  | _ => none

def defaultFrameTimeoutMs : ℕ := 30000

def nextFrame (expectType : String) (timeoutMs : ℕ) : Incoming → Except AeError JsAny
  | .silent =>
    .error (.wire ("timed out after " ++ toString timeoutMs ++ "ms waiting for " ++ expectType))
  | .broken message => .error (.wire ("AE frame read failed: " ++ message))
  | .closed => .error (.wire ("wire closed while waiting for " ++ expectType))
  | .malformed message =>
    .error (.wire ("malformed CBOR frame while waiting for " ++ expectType ++ ": " ++ message))
  | .frame v =>
    if isMap v then
      if frameType v = some expectType then .ok v
      else .error (.wire ("expected " ++ expectType ++ ", got " ++ (v.prop "type").toText))
    else .error (.wire ("non-map CBOR frame while waiting for " ++ expectType))

def maxWireItems : ℕ := 250000

/-- `bounded`. -/
def bounded {α : Type} (items : List α) (what : String) : Except AeError (List α) :=
  if maxWireItems < items.length then
    .error (.wire (what ++ " exceeds the wire bound (" ++ toString items.length ++ " > " ++
      toString maxWireItems ++ ")"))
  else .ok items

/-- `str`: a string that is not empty. -/
def str (frame : JsAny) (field : String) : Except AeError String :=
  match frame.prop field with
  | .str s =>
    if s = "" then .error (.wire ("frame field '" ++ field ++ "' missing or not a string")) else .ok s
  | _ => .error (.wire ("frame field '" ++ field ++ "' missing or not a string"))

def bytesField (frame : JsAny) (field : String) : Except AeError Bytes :=
  match frame.prop field with
  | .bytes b => .ok b
  | _ => .error (.wire ("frame field '" ++ field ++ "' missing or not bytes"))

/-- `frame[field] ?? []`. -/
def itemsOr (frame : JsAny) (field : String) : JsAny :=
  match frame.prop field with
  | .undefined => .arr []
  | .null => .arr []
  | v => v

theorem nextFrame_ok {expectType : String} {timeoutMs : ℕ} {incoming : Incoming} {v : JsAny}
    (h : nextFrame expectType timeoutMs incoming = .ok v) :
    incoming = .frame v ∧ frameType v = some expectType := by
  cases incoming with
  | frame w =>
    rw [nextFrame] at h
    split_ifs at h with hmap htype
    cases h
    exact ⟨rfl, htype⟩
  | malformed message => cases h
  | closed => cases h
  | silent => cases h
  | broken message => cases h

theorem bytesField_ok {frame : JsAny} {field : String} {b : Bytes} (h : bytesField frame field = .ok b) :
    frame.prop field = .bytes b := by
  unfold bytesField at h
  split at h
  · rename_i hb
    cases h
    exact hb
  · cases h

end Cello.Directory.AntiEntropy
