import Dynascript.Proofs.Typed.Nodes
import Dynascript.Proofs.Types.Growth
import Dynascript.Resolve.Creation

/-!
# Typing rules

`Rule cx r e` is what the typing rules ask of the node at the top of a resolved tree, in
the scopes and the settings of `cx` and with the types of `r` : where the member it names
comes from, what type and role it has, and for which target there is such a node at all.
A rule that holds keeps holding as the registry grows (`Rule.grow`).
-/

namespace Dynascript

namespace Registry

/-- `ty` has a field `name`, static or not, that belongs to `owner` and has `type`. -/
def HasField (r : Registry) (ty : TypeId) (name : String) (isStatic : Bool)
    (owner type : TypeId) : Prop :=
  r.findMember ty name = .ok (some (owner, ⟨name, .field type, isStatic⟩))

/-- `ty` has a method `name`, static or not, that belongs to `owner` and gives `result`. -/
def HasMethod (r : Registry) (ty : TypeId) (name : String) (isStatic : Bool)
    (owner result : TypeId) : Prop :=
  ∃ parameters,
    r.findMember ty name = .ok (some (owner, ⟨name, .method parameters result, isStatic⟩))

/-- The type is the dynamic one, or counts as dynamic. -/
def Dynamic (r : Registry) (ty : TypeId) : Prop := ty = .dynamic ∨ r.isDynamic ty = .ok true

/-- The member `name` of a value of type `ty` is looked up when the program runs : the
type is dynamic, or takes members by key and declares no member that `hides` the key. -/
def Late (r : Registry) (ty : TypeId) (name : String) (hides : Member → Prop) : Prop :=
  r.isDynamic ty = .ok true ∨
    r.isDynamicClass ty = .ok true ∧
      ∃ found, r.findMember ty name = .ok found ∧ ∀ p ∈ found, ¬hides p.2

/-- The type is known by a name, or the table has it. -/
def Knows (r : Registry) (ty : TypeId) : Prop :=
  (∃ name arity, r.lookup name arity = some ty) ∨ ∃ entry, r.table.get ty = .ok entry

/-- An element of a value of type `ty`, which is not a native array, has type `element` : what the
indexer gives, or the dynamic type if there is no indexer and the type takes members by key. -/
def HasIndexed (r : Registry) (ty element : TypeId) : Prop :=
  (∃ p, r.findMember ty Member.indexerName = .ok (some p) ∧ p.2.valueType = element) ∨
    r.findMember ty Member.indexerName = .ok none ∧ r.isDynamicClass ty = .ok true ∧
      element = .dynamic

/-- An element of a value of type `ty` has type `element`. A native array comes before an indexer,
and the dynamic type before both. -/
def HasElement (r : Registry) (ty element : TypeId) : Prop :=
  r.isDynamic ty = .ok true ∧ element = .dynamic ∨
    r.isDynamic ty = .ok false ∧
      ((∃ rank, r.arrayElement ty = .ok (some (element, rank))) ∨
        r.arrayElement ty = .ok none ∧ r.HasIndexed ty element)

/-- The type has instances. -/
def Constructible (r : Registry) (ty : TypeId) : Prop :=
  ∃ flags, r.flags ty = .ok flags ∧ flags.intersects (.unconstructible ∪ .dynamic) = false

/-- A new instance of `ty` takes a value under `name` : by key, or as a field. -/
def Takes (r : Registry) (ty : TypeId) (name : String) : Prop :=
  r.isDynamicCapable ty = .ok true ∨ ∃ owner type, r.HasField ty name false owner type

/-- `ty` is `IDictionary.<String, Object>`. -/
def IsStringDictionary (r : Registry) (ty : TypeId) : Prop :=
  ∃ entry, r.table.get ty = .ok entry ∧ entry.kind = .generic .dictionaryGeneric [.string, .object]

end Registry

/-- The type of a constant. -/
def Constant.type : Constant → TypeId
  | string _ => .string
  | int _ => .int
  | number _ => .number
  | bool _ => .boolean
  | null => .null
  | regex _ => .regexp
  | xml _ => .xml

/-- Regular expressions and XML are constants for the script target only. -/
def Constant.scriptOnly : Constant → Bool
  | regex _ | xml _ => true
  | _ => false

namespace Resolve

/-- The role of a call with the given result. -/
def callRole (result : TypeId) : Role := if result = .void then .nothing else .value

/-- What a new instance of `ty` may be filled with : elements of a collection that is not a
native array, or values under names that it takes. -/
def FillRule (r : Registry) (ty : TypeId) (initializers : List Initializer) : Prop :=
  r.arrayElement ty = .ok none ∧ (∀ x ∈ initializers, ∃ value, x = .element value) ∨
    ∀ x ∈ initializers, ∃ name value, x = .named name value ∧ r.Takes ty name

/-- What the typing rules ask of the node at the top of a tree. -/
def Rule (cx : Context) (r : Registry) : TypedExpr → Prop
  | .constant i value =>
    i.role = .value ∧ i.type = value.type ∧
      (value.scriptOnly = true → cx.settings.isScript = true)
  | .localVar i name => i.role = .place ∧ cx.scopes.lookup name = some i.type
  | .typeRef i => i.role = .type ∧ r.Knows i.type
  | .staticField i owner name =>
    i.role = .place ∧ r.HasField owner name true owner i.type ∨
      i.role = .value ∧ owner = .undefined ∧ name = undefinedField ∧ i.type = .undefined ∧
        cx.settings.isScript = false
  | .instanceField i target owner name =>
    i.role = .place ∧ target.role ≠ .type ∧ r.HasField target.type name false owner i.type
  | .dynamicMember i target name =>
    i.role = .place ∧ i.type = .dynamic ∧ target.role ≠ .type ∧
      r.Late target.type name (·.isStatic = false)
  | .element i target _ => i.role = .place ∧ r.HasElement target.type i.type
  | .staticCall i owner method _ =>
    i.role = callRole i.type ∧ r.HasMethod owner method true owner i.type
  | .instanceCall i receiver owner method _ =>
    i.role = callRole i.type ∧ r.HasMethod receiver.type method false owner i.type
  | .dynamicCall i receiver method _ =>
    i.role = .value ∧ i.type = .dynamic ∧ receiver.role ≠ .type ∧
      r.Late receiver.type method fun _ => True
  | .dynamicInvoke i callee _ =>
    i.role = .value ∧ i.type = .dynamic ∧
      (cx.settings.isScript = true ∨ callee.role ≠ .type ∧ r.Dynamic callee.type)
  | .cast i operand =>
    i.role = .value ∧ cx.settings.isScript = false ∧
      (i.type = .dynamicClass ∧ r.isDynamicCapable operand.type = .ok true ∨
        r.IsStringDictionary i.type ∧ r.isDynamic operand.type = .ok true)
  | .new i _ => i.role = .value ∧ cx.settings.isScript = false ∧ r.Constructible i.type
  | .dynamicNew i callee _ =>
    i.role = .value ∧ i.type = .dynamic ∧ cx.settings.isScript = false ∧
      callee.role ≠ .type ∧ r.isDynamic callee.type = .ok true
  | .newWith i args initializers =>
    i.role = .value ∧ cx.settings.isScript = false ∧ r.Constructible i.type ∧ args = [] ∧
      FillRule r i.type initializers
  | .newArray i element dimensions =>
    i.role = .value ∧ cx.settings.isScript = false ∧ cx.settings.isExtended = true ∧
      dimensions ≠ [] ∧ r.arrayElement i.type = .ok (some (element, dimensions.length))
  | .arrayOf i element dimensions values =>
    i.role = .value ∧ cx.settings.isScript = false ∧
      r.arrayElement i.type = .ok (some (element, 1)) ∧
      dimensions = [lengthConstant i.loc values.length]
  | .assign i target _ => i.role = .value ∧ target.role = .place ∧ i.type = target.type
  | .scriptDelete i _ | .scriptNew i _ | .scriptUndefined i =>
    i.role = .value ∧ i.type = .dynamic ∧ cx.settings.isScript = true
  | .scriptTypeof i _ =>
    i.role = .value ∧ i.type = .dynamic ∧ cx.settings.isScript = true ∧
      cx.settings.isExtended = false
  | .scriptIn i _ _ => i.role = .value ∧ i.type = .boolean ∧ cx.settings.isScript = true
  | .objectLiteral i _ | .arrayLiteral i _ => i.role = .value ∧ cx.settings.isScript = true

end Resolve

/-! ## Members that were found -/

theorem Member.valueType_of_field {m : Member} {type : TypeId} (h : m.kind = .field type) :
    m.valueType = type := by
  simp [valueType, h]

namespace Registry

variable {r r' : Registry} {ty owner : TypeId} {name : String}

theorem hasField_of_find {m : Member} {type : TypeId}
    (h : r.findMember ty name = .ok (some (owner, m))) (hk : m.kind = .field type) :
    r.HasField ty name m.isStatic owner type := by
  obtain ⟨name', kind, isStatic⟩ := m
  obtain rfl : name' = name := findMember_name h
  obtain rfl : kind = .field type := hk
  exact h

theorem hasMethod_of_find {m : Member} {parameters : List TypeId} {result : TypeId}
    (h : r.findMember ty name = .ok (some (owner, m)))
    (hk : m.kind = .method parameters result) : r.HasMethod ty name m.isStatic owner result := by
  obtain ⟨name', kind, isStatic⟩ := m
  obtain rfl : name' = name := findMember_name h
  obtain rfl : kind = .method parameters result := hk
  exact ⟨parameters, h⟩

theorem HasField.at_owner {isStatic : Bool} {type : TypeId}
    (h : r.HasField ty name isStatic owner type) : r.HasField owner name isStatic owner type :=
  findMember_owner h

theorem HasMethod.at_owner {isStatic : Bool} {result : TypeId}
    (h : r.HasMethod ty name isStatic owner result) :
    r.HasMethod owner name isStatic owner result :=
  h.imp fun _ => findMember_owner

/-! ## Growth -/

theorem HasMethod.grow (h : r.Grows r') {result : TypeId} {isStatic : Bool}
    (hm : r.HasMethod ty name isStatic owner result) :
    r'.HasMethod ty name isStatic owner result :=
  hm.imp fun _ => h.findMember

theorem Late.grow (h : r.Grows r') {hides : Member → Prop}
    (hl : r.Late ty name hides) : r'.Late ty name hides := by
  rcases hl with hd | ⟨hc, found, hfound, hhides⟩
  · exact .inl (h.isDynamic hd)
  · exact .inr ⟨h.isDynamicClass hc, found, h.findMember hfound, hhides⟩

theorem Knows.grow (h : r.Grows r') (hk : r.Knows ty) : r'.Knows ty := by
  rcases hk with ⟨name, arity, hl⟩ | ⟨entry, hget⟩
  · exact .inl ⟨name, arity, (h.lookup name arity).trans hl⟩
  · exact .inr ⟨entry, TypeTable.get_mono h.table hget⟩

theorem HasIndexed.grow (h : r.Grows r') {element : TypeId}
    (he : r.HasIndexed ty element) : r'.HasIndexed ty element := by
  rcases he with ⟨p, hp, he⟩ | ⟨hp, hc, he⟩
  · exact .inl ⟨p, h.findMember hp, he⟩
  · exact .inr ⟨h.findMember hp, h.isDynamicClass hc, he⟩

theorem HasElement.grow (h : r.Grows r') {element : TypeId}
    (he : r.HasElement ty element) : r'.HasElement ty element := by
  rcases he with ⟨hd, he⟩ | ⟨hd, ⟨rank, ha⟩ | ⟨ha, he⟩⟩
  · exact .inl ⟨h.isDynamic hd, he⟩
  · exact .inr ⟨h.isDynamic hd, .inl ⟨rank, h.arrayElement ha⟩⟩
  · exact .inr ⟨h.isDynamic hd, .inr ⟨h.arrayElement ha, he.grow h⟩⟩

theorem Constructible.grow (h : r.Grows r') (hc : r.Constructible ty) : r'.Constructible ty :=
  hc.imp fun _ hf => ⟨h.flags hf.1, hf.2⟩

theorem Takes.grow (h : r.Grows r') (ht : r.Takes ty name) : r'.Takes ty name := by
  rcases ht with hk | ⟨owner, type, hf⟩
  · exact .inl (h.isDynamicCapable hk)
  · exact .inr ⟨owner, type, h.findMember hf⟩

end Registry

namespace Resolve

variable {cx : Context} {r r' : Registry}

theorem FillRule.grow (h : r.Grows r') {ty : TypeId} {initializers : List Initializer}
    (hf : FillRule r ty initializers) : FillRule r' ty initializers := by
  rcases hf with ⟨ha, hs⟩ | hs
  · exact .inl ⟨h.arrayElement ha, hs⟩
  · refine .inr fun x hx => ?_
    obtain ⟨name, value, rfl, ht⟩ := hs x hx
    exact ⟨name, value, rfl, ht.grow h⟩

/-- A rule that holds keeps holding as types are added. -/
theorem Rule.grow (h : r.Grows r') {e : TypedExpr} (he : Rule cx r e) : Rule cx r' e := by
  cases e with
  | typeRef i => exact ⟨he.1, he.2.grow h⟩
  | staticField i owner name => exact he.imp_left fun ⟨hr, hf⟩ => ⟨hr, h.findMember hf⟩
  | instanceField i target owner name =>
    obtain ⟨hrole, ht, hf⟩ := he
    exact ⟨hrole, ht, h.findMember hf⟩
  | dynamicMember i target name =>
    obtain ⟨hrole, htype, ht, hl⟩ := he
    exact ⟨hrole, htype, ht, hl.grow h⟩
  | element i target args => exact ⟨he.1, he.2.grow h⟩
  | staticCall i owner method args => exact ⟨he.1, he.2.grow h⟩
  | instanceCall i receiver owner method args => exact ⟨he.1, he.2.grow h⟩
  | dynamicCall i receiver method args =>
    obtain ⟨hrole, htype, ht, hl⟩ := he
    exact ⟨hrole, htype, ht, hl.grow h⟩
  | dynamicInvoke i callee args =>
    obtain ⟨hrole, htype, hc⟩ := he
    exact ⟨hrole, htype, hc.imp_right fun ⟨ht, hd⟩ => ⟨ht, hd.imp_right h.isDynamic⟩⟩
  | cast i operand =>
    obtain ⟨hrole, hs, ⟨htype, hk⟩ | ⟨⟨entry, hentry, hk⟩, hd⟩⟩ := he
    · exact ⟨hrole, hs, .inl ⟨htype, h.isDynamicCapable hk⟩⟩
    · exact ⟨hrole, hs, .inr ⟨⟨entry, TypeTable.get_mono h.table hentry, hk⟩, h.isDynamic hd⟩⟩
  | new i args =>
    obtain ⟨hrole, hs, hc⟩ := he
    exact ⟨hrole, hs, hc.grow h⟩
  | dynamicNew i callee args =>
    obtain ⟨hrole, htype, hs, ht, hd⟩ := he
    exact ⟨hrole, htype, hs, ht, h.isDynamic hd⟩
  | newWith i args initializers =>
    obtain ⟨hrole, hs, hc, hargs, hf⟩ := he
    exact ⟨hrole, hs, hc.grow h, hargs, hf.grow h⟩
  | newArray i element dimensions =>
    obtain ⟨hrole, hs, hx, hne, ha⟩ := he
    exact ⟨hrole, hs, hx, hne, h.arrayElement ha⟩
  | arrayOf i element dimensions values =>
    obtain ⟨hrole, hs, ha, hdim⟩ := he
    exact ⟨hrole, hs, h.arrayElement ha, hdim⟩
  | constant | localVar | assign | scriptDelete | scriptNew | scriptTypeof | scriptIn
  | scriptUndefined | objectLiteral | arrayLiteral => exact he

/-- Every node of the tree obeys its rule. -/
abbrev Typed (cx : Context) (r : Registry) (e : TypedExpr) : Prop := e.Everywhere (Rule cx r)

theorem Typed.grow (h : r.Grows r') {e : TypedExpr} (he : Typed cx r e) : Typed cx r' e :=
  he.mono fun _ => Rule.grow h

end Resolve

end Dynascript
