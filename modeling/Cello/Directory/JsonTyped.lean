import Cello.Lib.JsObject

/-!
# Byte arrays through JSON

`packages/directory/src/json-typed.ts`.  A byte array is written as an object that says so, and an object that says
so is read as a byte array.  `JSON.stringify` asks a value for its `toJSON` before it asks the replacer, and a Node
buffer has one: the replacer never sees a buffer (`stringify_step`).  And nothing keeps an object of the caller from
saying that it is a byte array.  Everything else comes back as it went (`round_trip_iff`).
-/

namespace Cello.Directory.JsonTyped

open Lib

/-- What JSON is made of, and byte arrays.  The members of an object stand in its own order. -/
inductive Value where
  | null
  | bool (b : Bool)
  | num (q : ℚ)
  | str (s : String)
  /-- `Uint8Array`, which may be a Node `Buffer`. -/
  | bytes (buffer : Bool) (b : Bytes)
  | arr (items : List Value)
  | obj (members : List (String × Value))

/-! ### Writing -/

/-- `value.toJSON()`, of what has it. -/
def toJSON : Value → Value
  | .bytes true b => .obj [("type", .str "Buffer"), ("data", .arr (b.map fun x => .num x.toNat))]
  | v => v

def jsonReplacer : Value → Value
  | .bytes _ b => .obj [("__type", .str "Uint8Array"), ("hex", .str b.toHex)]
  | v => v

mutual

/-- `JSON.stringify(value, jsonReplacer)`. -/
def stringify : Value → JsonText
  | .null => .null
  | .bool b => .bool b
  | .num q => .num q
  | .str s => .str s
  | .bytes true b => .obj [("type", .str "Buffer"), ("data", .arr (b.map fun x => .num x.toNat))]
  | .bytes false b => .obj [("__type", .str "Uint8Array"), ("hex", .str b.toHex)]
  | .arr items => .arr (stringifyItems items)
  | .obj members => .obj (stringifyMembers members)

def stringifyItems : List Value → List JsonText
  | [] => []
  | v :: rest => stringify v :: stringifyItems rest

def stringifyMembers : List (String × Value) → List (String × JsonText)
  | [] => []
  | (k, v) :: rest => (k, stringify v) :: stringifyMembers rest

end

/-- One level of `JSON.stringify`, behind the hooks. -/
def writeLevel (v : Value) : JsonText :=
  match jsonReplacer (toJSON v) with
  | .null => .null
  | .bool b => .bool b
  | .num q => .num q
  | .str s => .str s
  -- an array of bytes has its indices as keys
  | .bytes _ b => JsAny.bytesText b
  | .arr items => .arr (items.map stringify)
  | .obj members => .obj (members.map fun m => (m.1, stringify m.2))

theorem stringifyItems_eq (items : List Value) : stringifyItems items = items.map stringify := by
  induction items with
  | nil => rfl
  | cons v rest ih => rw [stringifyItems, ih, List.map_cons]

theorem stringifyMembers_eq (members : List (String × Value)) :
    stringifyMembers members = members.map fun m => (m.1, stringify m.2) := by
  induction members with
  | nil => rfl
  | cons m rest ih => rw [stringifyMembers, ih, List.map_cons]

theorem stringify_step (v : Value) : stringify v = writeLevel v := by
  cases v with
  | bytes buffer b =>
    cases buffer with
    | false => rfl
    | true =>
      change JsonText.obj _ = JsonText.obj [_, ("data", stringify (.arr _))]
      rw [stringify, stringifyItems_eq, List.map_map]
      rfl
  | arr items => exact congrArg JsonText.arr (stringifyItems_eq items)
  | obj members => exact congrArg JsonText.obj (stringifyMembers_eq members)
  | _ => rfl

/-! ### Reading -/

/-- `Buffer.from(s, "hex")`: what stands before the first pair that is no hex. -/
def bufferFromHex : List Char → Bytes
  | a :: b :: rest =>
    if Bytes.isHexDigit a && Bytes.isHexDigit b then
      Bytes.ofHexDigits [a.toLower, b.toLower] ++ bufferFromHex rest
    else []
  | _ => []

def jsonReviver (value : JsAny) : JsAny :=
  match value with
  | .obj _ =>
    match value.prop "__type", value.prop "hex" with
    | .str type, .str hex => if type = "Uint8Array" then .bytes (bufferFromHex hex.toList) else value
    | _, _ => value
  | _ => value

mutual

/-- `JSON.parse(text, jsonReviver)`: a value is revived behind what is in it. -/
def parse : JsonText → JsAny
  | .null => jsonReviver .null
  | .bool b => jsonReviver (.bool b)
  | .num q => jsonReviver (.num (.fin q))
  | .str s => jsonReviver (.str s)
  | .arr items => jsonReviver (.arr (parseItems items))
  | .obj members => jsonReviver (.obj (parseMembers members))

def parseItems : List JsonText → List JsAny
  | [] => []
  | j :: rest => parse j :: parseItems rest

def parseMembers : List (String × JsonText) → List (String × JsAny)
  | [] => []
  | (k, j) :: rest => (k, parse j) :: parseMembers rest

end

/-! ### What should come back -/

mutual

/-- The value, with every byte array a `Uint8Array` of its bytes. -/
def asRead : Value → JsAny
  | .null => .null
  | .bool b => .bool b
  | .num q => .num (.fin q)
  | .str s => .str s
  | .bytes _ b => .bytes b
  | .arr items => .arr (asReadItems items)
  | .obj members => .obj (asReadMembers members)

def asReadItems : List Value → List JsAny
  | [] => []
  | v :: rest => asRead v :: asReadItems rest

def asReadMembers : List (String × Value) → List (String × JsAny)
  | [] => []
  | (k, v) :: rest => (k, asRead v) :: asReadMembers rest

end

mutual

/-- The value and what is in it. -/
def parts : Value → List Value
  | .arr items => .arr items :: partsOfItems items
  | .obj members => .obj members :: partsOfMembers members
  | v => [v]

def partsOfItems : List Value → List Value
  | [] => []
  | v :: rest => parts v ++ partsOfItems rest

def partsOfMembers : List (String × Value) → List Value
  | [] => []
  | (_, v) :: rest => parts v ++ partsOfMembers rest

end

/-- A Node buffer. -/
def IsBuffer (v : Value) : Prop := ∃ b, v = .bytes true b

/-- An object that says it is a byte array. -/
def PosesAsBytes (v : Value) : Prop :=
  ∃ members hex, v = .obj members ∧ members.lookup "__type" = some (.str "Uint8Array") ∧
    members.lookup "hex" = some (.str hex)

/-! ### Hex -/

theorem hexDigit_read {n : ℕ} (hn : n < 16) :
    Bytes.isHexDigit (Bytes.hexDigit n) = true ∧ Bytes.lowerHexValue (Bytes.hexDigit n).toLower = n := by
  have hall : ∀ m < 16,
      Bytes.isHexDigit (Bytes.hexDigit m) = true ∧ Bytes.lowerHexValue (Bytes.hexDigit m).toLower = m := by decide
  exact hall n hn

theorem bufferFromHex_toHex (b : Bytes) : bufferFromHex b.toHex.toList = b := by
  rw [Bytes.toHex, String.toList_ofList]
  induction b with
  | nil => rfl
  | cons x b ih =>
    have hx := x.toNat_lt
    obtain ⟨hhigh, hhigh'⟩ := hexDigit_read (n := x.toNat / 16) (by omega)
    obtain ⟨hlow, hlow'⟩ := hexDigit_read (n := x.toNat % 16) (by omega)
    rw [List.flatMap_cons, List.cons_append, List.cons_append, List.nil_append, bufferFromHex, hhigh, hlow, ih]
    rw [Bytes.ofHexDigits, Bytes.ofHexDigits, hhigh', hlow', Nat.div_add_mod, UInt8.ofNat_toNat]
    · rfl
    · rintro _ _ _ ⟨⟩

/-! ### The reviver -/

theorem lookup_asReadMembers (members : List (String × Value)) (key : String) :
    (asReadMembers members).lookup key = (members.lookup key).map asRead := by
  induction members with
  | nil => rfl
  | cons m members ih =>
    rw [asReadMembers, List.lookup_cons, List.lookup_cons]
    cases key == m.1 with
    | true => rfl
    | false => exact ih

theorem prop_asReadMembers {members : List (String × Value)} {key text : String} :
    (JsAny.obj (asReadMembers members)).prop key = .str text ↔ members.lookup key = some (.str text) := by
  rw [JsAny.prop, lookup_asReadMembers]
  cases members.lookup key with
  | none => simp
  | some v => cases v <;> simp [asRead]

theorem jsonReviver_obj_of_poses {members : List (String × Value)} (h : PosesAsBytes (.obj members)) :
    ∃ b, jsonReviver (.obj (asReadMembers members)) = .bytes b := by
  obtain ⟨_, hex, heq, htype, hhex⟩ := h
  cases heq
  rw [← prop_asReadMembers] at htype hhex
  refine ⟨bufferFromHex hex.toList, ?_⟩
  rw [jsonReviver, htype, hhex]
  exact if_pos rfl

theorem jsonReviver_obj {members : List (String × Value)} (h : ¬ PosesAsBytes (.obj members)) :
    jsonReviver (.obj (asReadMembers members)) = .obj (asReadMembers members) := by
  rw [jsonReviver]
  split
  · rename_i type hex htype hhex
    rw [if_neg]
    rintro rfl
    exact h ⟨members, hex, rfl, prop_asReadMembers.1 htype, prop_asReadMembers.1 hhex⟩
  · rfl

theorem eq_of_jsonReviver_obj {members members' : List (String × JsAny)}
    (h : jsonReviver (.obj members) = .obj members') : members = members' := by
  rw [jsonReviver] at h
  split at h
  · split at h
    · cases h
    · exact JsAny.obj.inj h
  · exact JsAny.obj.inj h

/-! ### The round trip -/

def Spared (v : Value) : Prop := ¬ IsBuffer v ∧ ¬ PosesAsBytes v

theorem parts_spared_of_leaf {v : Value} (hparts : parts v = [v]) (hbuffer : ∀ b, v ≠ .bytes true b)
    (hobj : ∀ members, v ≠ .obj members) : ∀ w ∈ parts v, Spared w := by
  intro w hw
  rw [hparts, List.mem_singleton] at hw
  subst hw
  refine ⟨?_, ?_⟩
  · rintro ⟨b, hb⟩
    exact hbuffer b hb
  · rintro ⟨members, hex, hw, -, -⟩
    exact hobj members hw

mutual

theorem parse_stringify : ∀ v : Value, parse (stringify v) = asRead v ↔ ∀ w ∈ parts v, Spared w
  | .null => iff_of_true rfl (parts_spared_of_leaf rfl (by rintro _ ⟨⟩) (by rintro _ ⟨⟩))
  | .bool _ => iff_of_true rfl (parts_spared_of_leaf rfl (by rintro _ ⟨⟩) (by rintro _ ⟨⟩))
  | .num _ => iff_of_true rfl (parts_spared_of_leaf rfl (by rintro _ ⟨⟩) (by rintro _ ⟨⟩))
  | .str _ => iff_of_true rfl (parts_spared_of_leaf rfl (by rintro _ ⟨⟩) (by rintro _ ⟨⟩))
  | .bytes true b => by
    refine iff_of_false ?_ ?_
    · -- what the buffer writes of itself does not say that it is a byte array
      intro h
      cases h
    · intro h
      exact (h _ List.mem_cons_self).1 ⟨b, rfl⟩
  | .bytes false b => by
    refine iff_of_true ?_ (parts_spared_of_leaf rfl (by rintro _ ⟨⟩) (by rintro _ ⟨⟩))
    exact congrArg JsAny.bytes (bufferFromHex_toHex b)
  | .arr items => by
    have hitems := parseItems_stringifyItems items
    have hself : Spared (.arr items) := ⟨by rintro ⟨_, ⟨⟩⟩, by rintro ⟨_, _, ⟨⟩, -, -⟩⟩
    rw [stringify, parse, asRead, parts, List.forall_mem_cons, ← hitems]
    refine ⟨fun h => ⟨hself, JsAny.arr.inj h⟩, ?_⟩
    rintro ⟨-, h⟩
    rw [h]
    rfl
  | .obj members => by
    have hmembers := parseMembers_stringifyMembers members
    rw [stringify, parse, asRead, parts, List.forall_mem_cons, ← hmembers]
    constructor
    · intro h
      have hread := eq_of_jsonReviver_obj h
      refine ⟨⟨by rintro ⟨_, ⟨⟩⟩, ?_⟩, hread⟩
      intro hposes
      obtain ⟨b, hb⟩ := jsonReviver_obj_of_poses hposes
      rw [hread, hb] at h
      cases h
    · rintro ⟨hself, hread⟩
      rw [hread]
      exact jsonReviver_obj hself.2

theorem parseItems_stringifyItems : ∀ items : List Value,
    parseItems (stringifyItems items) = asReadItems items ↔ ∀ w ∈ partsOfItems items, Spared w
  | [] => iff_of_true rfl (by rintro w ⟨⟩)
  | v :: rest => by
    have hv := parse_stringify v
    have hrest := parseItems_stringifyItems rest
    rw [stringifyItems, parseItems, asReadItems, partsOfItems, List.forall_mem_append, ← hv, ← hrest, List.cons.injEq]

theorem parseMembers_stringifyMembers : ∀ members : List (String × Value),
    parseMembers (stringifyMembers members) = asReadMembers members ↔ ∀ w ∈ partsOfMembers members, Spared w
  | [] => iff_of_true rfl (by rintro w ⟨⟩)
  | (k, v) :: rest => by
    have hv := parse_stringify v
    have hrest := parseMembers_stringifyMembers rest
    rw [stringifyMembers, parseMembers, asReadMembers, partsOfMembers, List.forall_mem_append, ← hv, ← hrest,
      List.cons.injEq, Prod.mk.injEq]
    exact and_congr_left' (and_iff_right rfl)

end

/-- **What comes back is what went, exactly where no Node buffer is in it and no object that says it is a byte
array.** -/
theorem round_trip_iff (v : Value) :
    parse (stringify v) = asRead v ↔ ∀ w ∈ parts v, ¬ IsBuffer w ∧ ¬ PosesAsBytes w :=
  parse_stringify v

/-- A key that is a Node buffer comes back as an object that lists its bytes. -/
theorem buffer_comes_back_as_object :
    parse (stringify (.obj [("pubkey", .bytes true [171])])) =
        .obj [("pubkey", .obj [("type", .str "Buffer"), ("data", .arr [.num (.fin 171)])])] ∧
      asRead (.obj [("pubkey", .bytes true [171])]) = .obj [("pubkey", .bytes [171])] ∧
      parse (stringify (.obj [("pubkey", .bytes true [171])])) ≠ asRead (.obj [("pubkey", .bytes true [171])]) := by
  refine ⟨rfl, rfl, ?_⟩
  intro h
  cases h

end Cello.Directory.JsonTyped
