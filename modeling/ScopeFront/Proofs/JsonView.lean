import ScopeFront.Proofs.JsonText
import ScopeFront.Run

/-!
# JSON keeps everything

The JSON form of a program leaves something out in a few places: what is absent is `null`, the
condition of a loop is the bare expression, parameters and members look alike, and functions in an
implementation do not say that they are functions.  Programs are read back all the same, since the
place of a value tells what it stands for.  Fields are looked up by their names, so their order does
not matter.

* `Json.Same` – the same value, up to the order of fields;
* `Expr.ofJson?`, `Header.ofFields?`, `Node.ofJson?`, `forestOfJson?` – what values stand for;
* `Json.StandsFor`, `Json.FieldsStandFor` – values and fields that are read back;
* `Node.standsFor_toJson`, `Function.standsFor_toJson` – nodes and functions are read back;
* `forest_is_read_back_from_json` – programs are told apart by their values, and by their texts.
-/

set_option autoImplicit false

namespace ScopeFront

namespace Json

/-! ## Values up to the order of fields -/

mutual

/-- The same value.  Objects are the same where they have as many fields, and the same value in each
field, in whatever order the fields stand. -/
def Same : Json → Json → Prop
  | .null, .null => True
  | .string text, .string text' => text = text'
  | .array items, .array items' => SameItems items items'
  | .object fields, .object fields' => fields.length = fields'.length ∧ SameFields fields fields'
  | _, _ => False

/-- The same values, in the same order. -/
def SameItems : List Json → List Json → Prop
  | [], [] => True
  | v :: vs, w :: ws => Same v w ∧ SameItems vs ws
  | _, _ => False

/-- Every field is among the others, with the same value. -/
def SameFields : List (String × Json) → List (String × Json) → Prop
  | [], _ => True
  | (name, v) :: fields, others =>
    (∃ w, others.lookup name = some w ∧ Same v w) ∧ SameFields fields others

end

/-! ## Readers -/

section Readers

variable {α : Type}

/-- The text of a string. -/
def string? : Json → Option String
  | .string text => some text
  | _ => none

/-- What a value stands for, or nothing where it is left out. -/
def optional? (read : Json → Option α) : Json → Option (Option α)
  | .null => some none
  | v => (read v).map some

/-- What the items of an array stand for. -/
def list? (read : Json → Option α) : Json → Option (List α)
  | .array items => items.mapM read
  | _ => none

/-- What the field with the name stands for. -/
def field? (name : String) (read : Json → Option α) (fields : List (String × Json)) : Option α :=
  (fields.lookup name).bind read

end Readers

end Json

open Json (string? optional? list? field?)

/-- The operator with this name, if there is one. -/
def BinaryOp.ofName? (name : String) : Option BinaryOp :=
  [add, sub, mul, div].find? (·.name == name)

theorem BinaryOp.ofName?_name (op : BinaryOp) : ofName? op.name = some op := by
  cases op <;> decide

/-- The operator that a value stands for. -/
def BinaryOp.ofJson? (v : Json) : Option BinaryOp := (string? v).bind BinaryOp.ofName?

mutual

/-- The expression that a value stands for. -/
def Expr.ofJson? : Json → Option Expr
  | .object [("Identifier", name)] => (string? name).map .identifier
  | .object [("Literal", digits)] => (string? digits).map .literal
  | .object [("Binary", .object fields)] => do
    let left ← Expr.inFields? "left" fields
    let op ← field? "operator" BinaryOp.ofJson? fields
    let right ← Expr.inFields? "right" fields
    return .binary left op right
  | _ => none

/-- The expression in the field with the name. -/
def Expr.inFields? (name : String) : List (String × Json) → Option Expr
  | [] => none
  | (key, value) :: fields =>
    if key = name then Expr.ofJson? value else Expr.inFields? name fields

end

/-- The type that a value stands for. -/
def TypeKeyword.ofJson? (v : Json) : Option TypeKeyword := (string? v).bind TypeKeyword.ofWord?

/-- The built-in operation that a value stands for. -/
def OperatorKeyword.ofJson? (v : Json) : Option OperatorKeyword :=
  (string? v).bind OperatorKeyword.ofWord?

/-- The parameter or member that a value stands for. -/
def TypedName.ofJson? : Json → Option TypedName
  | .object fields => do
    let name ← field? "name" string? fields
    let type ← field? "ty" TypeKeyword.ofJson? fields
    return ⟨name, type⟩
  | _ => none

/-- The header among the fields of a function. -/
def Header.ofFields? (fields : List (String × Json)) : Option Header := do
  let name ← field? "name" string? fields
  let parameters ← field? "parameters" (optional? (list? TypedName.ofJson?)) fields
  let returnType ← field? "return_type" (optional? TypeKeyword.ofJson?) fields
  return ⟨name, parameters, returnType⟩

/-- The function with these fields, of which `body` is already read. -/
def Function.ofFields? (fields : List (String × Json)) (body : Option (List Node)) :
    Option Function := do
  let header ← Header.ofFields? fields
  let body ← body
  return .mk header body

/-- The node of a kind with these fields, of which `body` and `functions` are already read. -/
def Node.ofFields? (fields : List (String × Json)) (body : Option (List Node))
    (functions : Option (List Function)) (kind : String) : Option Node :=
  match kind with
  | "Function" => (Function.ofFields? fields body).map .function
  | "For" => do
    let condition ← field? "condition" Expr.ofJson? fields
    let body ← body
    return .forLoop condition body
  | "Struct" => do
    let name ← field? "name" (optional? string?) fields
    let members ← field? "members" (list? TypedName.ofJson?) fields
    return .struct name members
  | "Implement" => do
    let name ← field? "name" (optional? string?) fields
    let functions ← functions
    return .implement name functions
  | "Labeled" => do
    let label ← field? "label" string? fields
    let f ← Function.ofFields? fields body
    return .labeled label f
  | "NamedScope" => do
    let name ← field? "name" string? fields
    let body ← body
    return .namedScope name body
  | "UnnamedScope" => body.map .unnamedScope
  | "VariableDeclaration" => do
    let name ← field? "name" string? fields
    let type ← field? "ty" TypeKeyword.ofJson? fields
    let value ← field? "value" Expr.ofJson? fields
    return .declaration name type value
  | "Assignment" => do
    let target ← field? "target" string? fields
    let value ← field? "value" Expr.ofJson? fields
    return .assignment target value
  | "FunctionCall" => do
    let callee ← field? "callee" string? fields
    let arguments ← field? "arguments" (list? Expr.ofJson?) fields
    return .call callee arguments
  | "Operator" => do
    let keyword ← field? "keyword" OperatorKeyword.ofJson? fields
    let arguments ← field? "arguments" (list? Expr.ofJson?) fields
    return .operator keyword arguments
  | _ => none

-- The recursion looks `body` and `functions` up by itself: of what `field?` finds, it is not seen to
-- be a part of the fields.
mutual

/-- The node that a value stands for. -/
def Node.ofJson? : Json → Option Node
  | .object [("Return", value)] => (optional? Expr.ofJson? value).map .ret
  | .object [(kind, .object fields)] =>
    Node.ofFields? fields (Node.bodyIn? fields) (Function.listIn? fields) kind
  | _ => none

/-- The nodes in the body of a scope. -/
def Node.bodyIn? : List (String × Json) → Option (List Node)
  | [] => none
  | (key, value) :: fields =>
    if key = "body" then
      match value with
      | .array items => Node.ofJsons? items
      | _ => none
    else Node.bodyIn? fields

/-- The nodes that values stand for. -/
def Node.ofJsons? : List Json → Option (List Node)
  | [] => some []
  | v :: vs => do
    let node ← Node.ofJson? v
    let nodes ← Node.ofJsons? vs
    return node :: nodes

/-- The function that a value stands for. -/
def Function.ofJson? : Json → Option Function
  | .object fields => Function.ofFields? fields (Node.bodyIn? fields)
  | _ => none

/-- The functions of an implementation. -/
def Function.listIn? : List (String × Json) → Option (List Function)
  | [] => none
  | (key, value) :: fields =>
    if key = "functions" then
      match value with
      | .array items => Function.ofJsons? items
      | _ => none
    else Function.listIn? fields

/-- The functions that values stand for. -/
def Function.ofJsons? : List Json → Option (List Function)
  | [] => some []
  | v :: vs => do
    let f ← Function.ofJson? v
    let fs ← Function.ofJsons? vs
    return f :: fs

end

/-! ## Fields and lists are read alike -/

/-- What looks fields up one after the other finds them by their names. -/
theorem Json.eq_field? {α : Type} {name : String} {read : Json → Option α}
    {find : List (String × Json) → Option α} (hnil : find [] = none)
    (hcons : ∀ key v fields,
      find ((key, v) :: fields) = if key = name then read v else find fields)
    (fields : List (String × Json)) : find fields = field? name read fields := by
  induction fields with
  | nil => exact hnil
  | cons field fields ih =>
      obtain ⟨key, v⟩ := field
      rw [hcons, ih, field?, field?, List.lookup_cons]
      split
      · rename_i hkey
        rw [beq_iff_eq.2 hkey.symm, Option.bind_some]
      · rename_i hkey
        rw [beq_eq_false_iff_ne.2 fun h => hkey h.symm]

theorem Expr.inFields?_eq (name : String) (fields : List (String × Json)) :
    Expr.inFields? name fields = field? name Expr.ofJson? fields :=
  Json.eq_field? rfl (fun _ _ _ => by rw [Expr.inFields?]) fields

theorem Node.ofJsons?_eq (vs : List Json) : Node.ofJsons? vs = vs.mapM Node.ofJson? := by
  induction vs with
  | nil => rfl
  | cons v vs ih => rw [Node.ofJsons?, ih, List.mapM_cons]

theorem Function.ofJsons?_eq (vs : List Json) :
    Function.ofJsons? vs = vs.mapM Function.ofJson? := by
  induction vs with
  | nil => rfl
  | cons v vs ih => rw [Function.ofJsons?, ih, List.mapM_cons]

theorem Node.bodyIn?_eq (fields : List (String × Json)) :
    Node.bodyIn? fields = field? "body" (list? Node.ofJson?) fields := by
  refine Json.eq_field? rfl (fun key v fields => ?_) fields
  cases v with
  | array items => rw [Node.bodyIn?, Node.ofJsons?_eq, list?]
  | _ => rfl

theorem Function.listIn?_eq (fields : List (String × Json)) :
    Function.listIn? fields = field? "functions" (list? Function.ofJson?) fields := by
  refine Json.eq_field? rfl (fun key v fields => ?_) fields
  cases v with
  | array items => rw [Function.listIn?, Function.ofJsons?_eq, list?]
  | _ => rfl

/-! ## What is read back -/

namespace Json

theorem same_string {text : String} {w : Json} : Same (.string text) w ↔ w = .string text := by
  cases w <;> simp [Same, eq_comm]

theorem same_array {vs : List Json} {w : Json} :
    Same (.array vs) w ↔ ∃ ws, w = .array ws ∧ SameItems vs ws := by
  cases w <;> simp [Same]

theorem same_object {fields : List (String × Json)} {w : Json} :
    Same (.object fields) w ↔
      ∃ others, w = .object others ∧ fields.length = others.length ∧ SameFields fields others := by
  cases w <;> simp [Same]

theorem sameFields_iff {fields others : List (String × Json)} :
    SameFields fields others ↔
      ∀ field ∈ fields, ∃ w, others.lookup field.1 = some w ∧ Same field.2 w := by
  induction fields with
  | nil => simp [SameFields]
  | cons field fields ih => rw [SameFields, ih, List.forall_mem_cons]

/-- Fields are found by their names where these are distinct. -/
theorem lookup_of_mem {fields : List (String × Json)} (hnames : (fields.map Prod.fst).Nodup)
    {field : String × Json} (h : field ∈ fields) : fields.lookup field.1 = some field.2 := by
  induction fields with
  | nil => cases h
  | cons first fields ih =>
      rw [List.map_cons, List.nodup_cons] at hnames
      rcases List.mem_cons.1 h with rfl | hlater
      · exact List.lookup_cons_self
      · have hname : field.1 ≠ first.1 := by
          intro heq
          exact hnames.1 (heq ▸ List.mem_map_of_mem hlater)
        rw [List.lookup_cons, beq_eq_false_iff_ne.2 hname]
        exact ih hnames.2 hlater

/-- The value stands for `a`: it is the same as itself, and whatever is the same is read as `a`. -/
structure StandsFor {α : Type} (read : Json → Option α) (v : Json) (a : α) : Prop where
  self : v.Same v
  read : ∀ w, v.Same w → read w = some a

/-- Fields with distinct names, and what is true of all objects in which they are found. -/
structure FieldsStandFor (fields : List (String × Json)) (P : List (String × Json) → Prop) :
    Prop where
  names : (fields.map Prod.fst).Nodup
  self : ∀ field ∈ fields, Same field.2 field.2
  read : ∀ others, SameFields fields others → P others

section StandsFor

variable {α : Type} {read : Json → Option α}

theorem standsFor_string {text : String} {a : α} (h : read (.string text) = some a) :
    StandsFor read (.string text) a where
  self := same_string.2 rfl
  read w hw := by
    rw [same_string.1 hw]
    exact h

theorem standsFor_nil : StandsFor (list? read) (.array []) [] where
  self := trivial
  read w hw := by
    obtain ⟨ws, rfl, hws⟩ := same_array.1 hw
    cases ws with
    | nil => rfl
    | cons => cases hws

theorem standsFor_cons {v : Json} {vs : List Json} {a : α} {as : List α}
    (h : StandsFor read v a) (hs : StandsFor (list? read) (.array vs) as) :
    StandsFor (list? read) (.array (v :: vs)) (a :: as) where
  self := ⟨h.self, hs.self⟩
  read w hw := by
    obtain ⟨ws, rfl, hws⟩ := same_array.1 hw
    cases ws with
    | nil => cases hws
    | cons w ws =>
        have hlater : ws.mapM read = some as := hs.read (.array ws) hws.2
        rw [list?, List.mapM_cons, h.read w hws.1, hlater]
        rfl

theorem standsFor_map {toJson : α → Json} (h : ∀ a, StandsFor read (toJson a) a) (as : List α) :
    StandsFor (list? read) (.array (as.map toJson)) as := by
  induction as with
  | nil => exact standsFor_nil
  | cons a as ih => exact standsFor_cons (h a) ih

/-- What may be left out is told from `null`. -/
theorem standsFor_optional {toJson : α → Json} (h : ∀ a, StandsFor read (toJson a) a)
    (hnull : ∀ a, ¬ Same (toJson a) .null) (a : Option α) :
    StandsFor (optional? read) (.optional (a.map toJson)) a := by
  cases a with
  | none =>
      refine ⟨trivial, fun w hw => ?_⟩
      cases w with
      | null => rfl
      | _ => cases hw
  | some a =>
      refine ⟨(h a).self, fun w hw => ?_⟩
      have hread := (h a).read w hw
      cases w with
      | null => exact absurd hw (hnull a)
      | _ => exact congrArg (Option.map some) hread

/-- A variant stands for what the value in its only field is read as. -/
theorem standsFor_variant {kind : String} {v : Json} {a : α}
    (h : StandsFor (fun w => read (.variant kind w)) v a) :
    StandsFor read (.variant kind v) a where
  self := ⟨rfl, ⟨v, List.lookup_cons_self, h.self⟩, trivial⟩
  read w hw := by
    obtain ⟨others, rfl, hlength, ⟨w, hlookup, hsame⟩, _⟩ := same_object.1 hw
    obtain ⟨⟨key, w'⟩, rfl⟩ := List.length_eq_one_iff.1 hlength.symm
    rw [List.lookup_cons] at hlookup
    split at hlookup
    · rename_i hkey
      obtain rfl := beq_iff_eq.1 hkey
      obtain rfl := Option.some.inj hlookup
      exact h.read w' hsame
    · cases hlookup

/-- An object stands for what is read from its fields, in whatever order they stand. -/
theorem standsFor_object {a : α} {fields : List (String × Json)}
    {P : List (String × Json) → Prop} (h : FieldsStandFor fields P)
    (hread : ∀ others, P others → read (.object others) = some a) :
    StandsFor read (.object fields) a where
  self := ⟨rfl, sameFields_iff.2 fun field hfield =>
    ⟨field.2, lookup_of_mem h.names hfield, h.self field hfield⟩⟩
  read w hw := by
    obtain ⟨others, rfl, _, hfields⟩ := same_object.1 hw
    exact hread others (h.read others hfields)

namespace FieldsStandFor

variable {fields : List (String × Json)} {P Q : List (String × Json) → Prop}

theorem nil : FieldsStandFor [] fun _ => True where
  names := List.nodup_nil
  self _ hfield := nomatch hfield
  read _ _ := trivial

theorem cons {name : String} {v : Json} {a : α} (hname : name ∉ fields.map Prod.fst)
    (hv : StandsFor read v a) (h : FieldsStandFor fields P) :
    FieldsStandFor ((name, v) :: fields) fun others =>
      field? name read others = some a ∧ P others where
  names := List.nodup_cons.2 ⟨hname, h.names⟩
  self := List.forall_mem_cons.2 ⟨hv.self, h.self⟩
  read others hothers := by
    obtain ⟨⟨w, hlookup, hsame⟩, hlater⟩ := hothers
    refine ⟨?_, h.read others hlater⟩
    rw [field?, hlookup, Option.bind_some, hv.read w hsame]

theorem imp (h : FieldsStandFor fields P) (hPQ : ∀ others, P others → Q others) :
    FieldsStandFor fields Q where
  names := h.names
  self := h.self
  read others hothers := hPQ others (h.read others hothers)

end FieldsStandFor

end StandsFor

end Json

open Json (StandsFor FieldsStandFor)

/-! ## Parts -/

theorem standsFor_text (text : String) : StandsFor string? (.string text) text :=
  Json.standsFor_string rfl

theorem Expr.not_same_null (e : Expr) : ¬ Json.Same e.toJson .null := by
  cases e <;> exact id

theorem BinaryOp.standsFor_name (op : BinaryOp) :
    StandsFor BinaryOp.ofJson? (.string op.name) op :=
  Json.standsFor_string op.ofName?_name

theorem Expr.standsFor_toJson (e : Expr) : StandsFor Expr.ofJson? e.toJson e := by
  induction e with
  | identifier name => exact Json.standsFor_variant (Json.standsFor_string rfl)
  | literal digits => exact Json.standsFor_variant (Json.standsFor_string rfl)
  | binary left op right hleft hright =>
      refine Json.standsFor_variant (Json.standsFor_object (.cons (by simp) hleft
        (.cons (by simp) op.standsFor_name (.cons (by simp) hright .nil))) ?_)
      rintro fields ⟨hleft, hop, hright, _⟩
      rw [Json.variant, Expr.ofJson?, Expr.inFields?_eq, Expr.inFields?_eq, hleft, hop, hright]
      rfl

theorem Expr.standsFor_list (es : List Expr) :
    StandsFor (list? Expr.ofJson?) (Expr.listToJson es) es :=
  Json.standsFor_map Expr.standsFor_toJson es

theorem TypeKeyword.standsFor_toJson (type : TypeKeyword) :
    StandsFor TypeKeyword.ofJson? type.toJson type :=
  Json.standsFor_string type.ofWord?_word

theorem OperatorKeyword.standsFor_word (keyword : OperatorKeyword) :
    StandsFor OperatorKeyword.ofJson? (.string keyword.word) keyword :=
  Json.standsFor_string keyword.ofWord?_word

theorem TypedName.standsFor_toJson (d : TypedName) : StandsFor TypedName.ofJson? d.toJson d := by
  refine Json.standsFor_object (.cons (by simp) (standsFor_text d.name)
    (.cons (by simp) d.type.standsFor_toJson .nil)) ?_
  rintro fields ⟨hname, htype, _⟩
  rw [TypedName.ofJson?, hname, htype]
  rfl

theorem TypedName.standsFor_list (ds : List TypedName) :
    StandsFor (list? TypedName.ofJson?) (TypedName.listToJson ds) ds :=
  Json.standsFor_map TypedName.standsFor_toJson ds

theorem standsFor_name (name : Option String) :
    StandsFor (optional? string?) (.optional (name.map .string)) name :=
  Json.standsFor_optional standsFor_text (fun _ => id) name

/-! ## Nodes and functions -/

theorem Node.ofJson?_variant {kind : String} (h : kind ≠ "Return") (fields : List (String × Json)) :
    Node.ofJson? (.variant kind (.object fields)) =
      Node.ofFields? fields (field? "body" (list? Node.ofJson?) fields)
        (field? "functions" (list? Function.ofJson?) fields) kind := by
  rw [Json.variant, Node.ofJson?, Node.bodyIn?_eq, Function.listIn?_eq]
  exact h

/-- A node with fields stands for what is read from these. -/
theorem Node.standsFor_fields {kind : String} {fields : List (String × Json)} {node : Node}
    {P : List (String × Json) → Prop} (hkind : kind ≠ "Return") (h : FieldsStandFor fields P)
    (hread : ∀ others, P others → Node.ofFields? others (field? "body" (list? Node.ofJson?) others)
      (field? "functions" (list? Function.ofJson?) others) kind = some node) :
    StandsFor Node.ofJson? (.variant kind (.object fields)) node := by
  refine Json.standsFor_variant (Json.standsFor_object h fun others hothers => ?_)
  rw [Node.ofJson?_variant hkind, hread others hothers]

/-- A function is read back from its fields where its body is. -/
theorem Function.fields_mk (header : Header) {body : List Node}
    (hbody : StandsFor (list? Node.ofJson?) (.array (Node.toJsons body)) body) :
    FieldsStandFor (Function.mk header body).toFields fun others =>
      Function.ofFields? others (field? "body" (list? Node.ofJson?) others) =
        some (.mk header body) := by
  have hparameters := Json.standsFor_optional TypedName.standsFor_list (fun _ => id)
    header.parameters
  have htype := Json.standsFor_optional TypeKeyword.standsFor_toJson (fun _ => id)
    header.returnType
  rw [Function.toFields, Header.toFields]
  simp only [List.cons_append, List.nil_append]
  refine .imp (.cons (by simp) (standsFor_text header.name) (.cons (by simp) hparameters
    (.cons (by simp) htype (.cons (by simp) hbody .nil)))) ?_
  rintro others ⟨hname, hparameters, htype, hbody, _⟩
  rw [Function.ofFields?, Header.ofFields?, hname, hparameters, htype, hbody]
  rfl

theorem Function.label_not_mem_toFields (f : Function) : "label" ∉ f.toFields.map Prod.fst := by
  cases f
  simp [Function.toFields, Header.toFields]

mutual

/-- A node is read back from its value. -/
theorem Node.standsFor_toJson (node : Node) : StandsFor Node.ofJson? node.toJson node := by
  cases node with
  | function f =>
      rw [Node.toJson]
      refine Node.standsFor_fields (by decide) f.fields_toFields fun fields hf => ?_
      rw [Node.ofFields?, hf]
      rfl
  | forLoop condition body =>
      rw [Node.toJson]
      refine Node.standsFor_fields (by decide) (.cons (by simp) condition.standsFor_toJson
        (.cons (by simp) (Node.standsFor_list body) .nil)) ?_
      rintro fields ⟨hcondition, hbody, _⟩
      rw [Node.ofFields?, hcondition, hbody]
      rfl
  | struct name members =>
      rw [Node.toJson]
      refine Node.standsFor_fields (by decide) (.cons (by simp) (standsFor_name name)
        (.cons (by simp) (TypedName.standsFor_list members) .nil)) ?_
      rintro fields ⟨hname, hmembers, _⟩
      rw [Node.ofFields?, hname, hmembers]
      rfl
  | implement name functions =>
      rw [Node.toJson]
      refine Node.standsFor_fields (by decide) (.cons (by simp) (standsFor_name name)
        (.cons (by simp) (Function.standsFor_list functions) .nil)) ?_
      rintro fields ⟨hname, hfunctions, _⟩
      rw [Node.ofFields?, hname, hfunctions]
      rfl
  | labeled label f =>
      rw [Node.toJson]
      refine Node.standsFor_fields (by decide) (.cons f.label_not_mem_toFields
        (standsFor_text label) f.fields_toFields) ?_
      rintro fields ⟨hlabel, hf⟩
      rw [Node.ofFields?, hlabel, hf]
      rfl
  | namedScope name body =>
      rw [Node.toJson]
      refine Node.standsFor_fields (by decide) (.cons (by simp) (standsFor_text name)
        (.cons (by simp) (Node.standsFor_list body) .nil)) ?_
      rintro fields ⟨hname, hbody, _⟩
      rw [Node.ofFields?, hname, hbody]
      rfl
  | unnamedScope body =>
      rw [Node.toJson]
      refine Node.standsFor_fields (by decide) (.cons (by simp) (Node.standsFor_list body) .nil) ?_
      rintro fields ⟨hbody, _⟩
      rw [Node.ofFields?, hbody]
      rfl
  | declaration name type value =>
      rw [Node.toJson]
      refine Node.standsFor_fields (by decide) (.cons (by simp) (standsFor_text name)
        (.cons (by simp) type.standsFor_toJson
          (.cons (by simp) value.standsFor_toJson .nil))) ?_
      rintro fields ⟨hname, htype, hvalue, _⟩
      rw [Node.ofFields?, hname, htype, hvalue]
      rfl
  | assignment target value =>
      rw [Node.toJson]
      refine Node.standsFor_fields (by decide) (.cons (by simp) (standsFor_text target)
        (.cons (by simp) value.standsFor_toJson .nil)) ?_
      rintro fields ⟨htarget, hvalue, _⟩
      rw [Node.ofFields?, htarget, hvalue]
      rfl
  | ret value =>
      -- The value itself stands in the place of fields, or `null`.
      have hvalue := Json.standsFor_optional Expr.standsFor_toJson Expr.not_same_null value
      rw [Node.toJson]
      refine Json.standsFor_variant ⟨hvalue.self, fun w hw => ?_⟩
      exact congrArg (Option.map Node.ret) (hvalue.read w hw)
  | call callee arguments =>
      rw [Node.toJson]
      refine Node.standsFor_fields (by decide) (.cons (by simp) (standsFor_text callee)
        (.cons (by simp) (Expr.standsFor_list arguments) .nil)) ?_
      rintro fields ⟨hcallee, harguments, _⟩
      rw [Node.ofFields?, hcallee, harguments]
      rfl
  | operator keyword arguments =>
      rw [Node.toJson]
      refine Node.standsFor_fields (by decide) (.cons (by simp) keyword.standsFor_word
        (.cons (by simp) (Expr.standsFor_list arguments) .nil)) ?_
      rintro fields ⟨hkeyword, harguments, _⟩
      rw [Node.ofFields?, hkeyword, harguments]
      rfl

/-- A function is read back from its fields. -/
theorem Function.fields_toFields (f : Function) :
    FieldsStandFor f.toFields fun others =>
      Function.ofFields? others (field? "body" (list? Node.ofJson?) others) = some f := by
  cases f with
  | mk header body => exact Function.fields_mk header (Node.standsFor_list body)

theorem Function.standsFor_toJson (f : Function) :
    StandsFor Function.ofJson? (.object f.toFields) f := by
  refine Json.standsFor_object f.fields_toFields fun others hf => ?_
  rw [Function.ofJson?, Node.bodyIn?_eq, hf]

theorem Node.standsFor_list (nodes : List Node) :
    StandsFor (list? Node.ofJson?) (.array (Node.toJsons nodes)) nodes := by
  cases nodes with
  | nil => exact Json.standsFor_nil
  | cons node nodes =>
      exact Json.standsFor_cons (Node.standsFor_toJson node) (Node.standsFor_list nodes)

theorem Function.standsFor_list (fs : List Function) :
    StandsFor (list? Function.ofJson?) (.array (Function.toJsons fs)) fs := by
  cases fs with
  | nil => exact Json.standsFor_nil
  | cons f fs => exact Json.standsFor_cons f.standsFor_toJson (Function.standsFor_list fs)

end

/-! ## Whole programs -/

/-- The program that a value stands for. -/
def forestOfJson? (v : Json) : Option (List Node) := list? Node.ofJson? v

theorem standsFor_forest (forest : List Node) :
    StandsFor forestOfJson? (Json.ofForest forest) forest :=
  Json.standsFor_map Node.standsFor_toJson forest

/-- Programs with the same value are the same. -/
theorem Json.same_ofForest {forest other : List Node} :
    Json.Same (Json.ofForest forest) (Json.ofForest other) ↔ forest = other := by
  constructor
  · intro h
    have hforest := (standsFor_forest forest).read _ h
    have hother := (standsFor_forest other).read _ (standsFor_forest other).self
    exact Option.some.inj (hforest.symm.trans hother)
  · rintro rfl
    exact (standsFor_forest forest).self

theorem Json.ofForest_inj {forest other : List Node} :
    Json.ofForest forest = Json.ofForest other ↔ forest = other := by
  constructor
  · intro h
    refine Json.same_ofForest.1 ?_
    rw [← h]
    exact (standsFor_forest forest).self
  · rintro rfl
    rfl

theorem Format.render_json_inj {forest other : List Node} :
    Format.json.render forest = Format.json.render other ↔ forest = other := by
  rw [Format.render, Format.render, String.append_left_inj, Json.pretty_inj, Json.ofForest_inj]

/-- **JSON loses nothing.**  A program is read back from its value, and from every value that is the
same in whatever order the fields of its objects stand.  So programs with the same value are the
same, and so are programs with the same printed text. -/
theorem forest_is_read_back_from_json (forest : List Node) :
    forestOfJson? (Json.ofForest forest) = some forest ∧
      (∀ v, Json.Same (Json.ofForest forest) v → forestOfJson? v = some forest) ∧
      ∀ other, (Json.ofForest forest = Json.ofForest other ↔ forest = other) ∧
        (Json.Same (Json.ofForest forest) (Json.ofForest other) ↔ forest = other) ∧
        (Format.json.render forest = Format.json.render other ↔ forest = other) := by
  obtain ⟨hself, hread⟩ := standsFor_forest forest
  refine ⟨hread _ hself, hread, fun other => ?_⟩
  exact ⟨Json.ofForest_inj, Json.same_ofForest, Format.render_json_inj⟩

/-- A program is read back from a value whose fields stand in another order than its own. -/
theorem assignment_is_read_back_from_reordered_fields :
    let forest : List Node := [.assignment "x" (.literal "1")]
    let v : Json := .array [.variant "Assignment" (.object
      [("value", (Expr.literal "1").toJson), ("target", .string "x")])]
    Json.Same (Json.ofForest forest) v ∧ forestOfJson? v = some forest := by
  intro forest v
  have hvalue := (Expr.standsFor_toJson (.literal "1")).self
  have hsame : Json.Same (Json.ofForest forest) v := by
    refine ⟨⟨rfl, ⟨_, rfl, rfl, ?_⟩, trivial⟩, trivial⟩
    exact ⟨⟨_, rfl, rfl⟩, ⟨_, rfl, hvalue⟩, trivial⟩
  exact ⟨hsame, (forest_is_read_back_from_json forest).2.1 v hsame⟩

end ScopeFront
