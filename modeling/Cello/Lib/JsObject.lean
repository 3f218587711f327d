import Cello.Lib.JsValue

/-!
# Values through JSON

What `JSON.parse(JSON.stringify(v))` makes of a value.  A text holds finite numbers, strings,
arrays and objects and nothing else, so a number that is not finite comes back as `null`, and a
byte array comes back as an object with one member for each byte.
-/

namespace Lib

/-- A value whose type is not known. -/
inductive JsAny where
  | undefined
  | null
  | bool (b : Bool)
  | num (n : JsNumber)
  | bigint (n : ℤ)
  | str (s : String)
  /-- `Uint8Array`. -/
  | bytes (b : Bytes)
  | arr (items : List JsAny)
  | obj (members : List (String × JsAny))

/-- What a JSON text says. -/
inductive JsonText where
  | null
  | bool (b : Bool)
  | num (q : ℚ)
  | str (s : String)
  | arr (items : List JsonText)
  | obj (members : List (String × JsonText))

namespace JsAny

/-- `v[key]`. -/
def prop (v : JsAny) (key : String) : JsAny :=
  match v with
  | obj members => (members.lookup key).getD undefined
  | _ => undefined

mutual

/-- `JSON.stringify`; `none` where it writes nothing or throws. -/
def toJson : JsAny → Option JsonText
  | undefined => none
  | null => some .null
  | bool b => some (.bool b)
  | num (.fin q) => some (.num q)
  | num _ => some .null
  | bigint _ => none
  | str s => some (.str s)
  -- an array of bytes has its indices as keys
  | bytes b => some (.obj (b.zipIdx.map fun (x, i) => (toString i, .num (x.toNat : ℚ))))
  | arr items => (itemsJson items).map .arr
  | obj members => (membersJson members).map .obj

def itemsJson : List JsAny → Option (List JsonText)
  | [] => some []
  | undefined :: rest => (itemsJson rest).map (.null :: ·)
  | v :: rest => (toJson v).bind fun j => (itemsJson rest).map (j :: ·)

def membersJson : List (String × JsAny) → Option (List (String × JsonText))
  | [] => some []
  | (_, undefined) :: rest => membersJson rest
  | (k, v) :: rest => (toJson v).bind fun j => (membersJson rest).map ((k, j) :: ·)

end

end JsAny

namespace JsonText

mutual

/-- `JSON.parse`. -/
def parse : JsonText → JsAny
  | null => .null
  | bool b => .bool b
  | num q => .num (.fin q)
  | str s => .str s
  | arr items => .arr (parseItems items)
  | obj members => .obj (parseMembers members)

def parseItems : List JsonText → List JsAny
  | [] => []
  | j :: rest => parse j :: parseItems rest

def parseMembers : List (String × JsonText) → List (String × JsAny)
  | [] => []
  | (k, j) :: rest => (k, parse j) :: parseMembers rest

end

end JsonText

namespace JsAny

def numberText : JsNumber → JsonText
  | .fin q => .num q
  | _ => .null

def bytesText (b : Bytes) : JsonText :=
  .obj (b.zipIdx.map fun (x, i) => (toString i, .num (x.toNat : ℚ)))

@[simp] theorem toJson_num (n : JsNumber) : (num n).toJson = some (numberText n) := by
  cases n <;> rfl

@[simp] theorem toJson_bytes (b : Bytes) : (bytes b).toJson = some (bytesText b) := rfl

@[simp] theorem toJson_bool (b : Bool) : (bool b).toJson = some (.bool b) := rfl

@[simp] theorem toJson_str (s : String) : (str s).toJson = some (.str s) := rfl

theorem toJson_arr {items : List JsAny} {texts : List JsonText} (h : itemsJson items = some texts) :
    (arr items).toJson = some (.arr texts) := by
  rw [toJson, h, Option.map_some]

theorem toJson_obj {members : List (String × JsAny)} {texts : List (String × JsonText)}
    (h : membersJson members = some texts) : (obj members).toJson = some (.obj texts) := by
  rw [toJson, h, Option.map_some]

@[simp] theorem membersJson_nil : membersJson [] = some [] := rfl

theorem membersJson_cons {k : String} {v : JsAny} {j : JsonText} {rest : List (String × JsAny)}
    {texts : List (String × JsonText)} (hv : v.toJson = some j) (hrest : membersJson rest = some texts) :
    membersJson ((k, v) :: rest) = some ((k, j) :: texts) := by
  cases v with
  | undefined => cases hv
  | _ => simp [membersJson, hv, hrest]

theorem itemsJson_map {α : Type*} {f : α → JsAny} {g : α → JsonText} :
    ∀ {l : List α}, (∀ x ∈ l, (f x).toJson = some (g x)) → itemsJson (l.map f) = some (l.map g) := by
  intro l
  induction l with
  | nil => intro _; rfl
  | cons x rest ih =>
    intro h
    have hx := h x List.mem_cons_self
    have hrest := ih fun y hy => h y (List.mem_cons_of_mem _ hy)
    rw [List.map_cons, List.map_cons]
    cases hf : f x with
    | undefined =>
      rw [hf] at hx
      cases hx
    | _ =>
      rw [hf] at hx
      simp [itemsJson, hx, hrest]

theorem parseItems_map {α : Type*} (g : α → JsonText) (l : List α) :
    JsonText.parseItems (l.map g) = l.map fun x => (g x).parse := by
  induction l with
  | nil => rfl
  | cons x rest ih => rw [List.map_cons, JsonText.parseItems, ih, List.map_cons]

end JsAny

end Lib
