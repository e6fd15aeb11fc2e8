import Dynascript.Proofs.Resolve.Settling

/-!
# How the parts of resolution settle

One lemma for each step that resolution is made of : written types, members, calls,
construction, initializers and the dynamic operators. Given parts that are well typed, a
step settles with a well typed tree.
-/

namespace Dynascript.Resolve

variable {α β : Type} {cx : Context} {r : Registry} {excuse : Prop}

/-! ## Written types -/

theorem silent_bind {x : Resolve α} {f : α → Resolve β} (hx : Always x cx r (Silent r))
    (hf : ∀ r' a, Always (f a) cx r' (Silent r')) : Always (x >>= f) cx r (Silent r) := by
  refine always_bind (hx.mono fun o ho => (hf _ _).mono fun o' ho' => ⟨?_, ho.2.trans ho'.2⟩)
  rw [ho.1, ho'.1, List.append_nil]

theorem silent_pure (a : α) : Always (pure a) cx r (Silent r) := always_pure ⟨rfl, .refl r⟩

theorem makeGeneric_silent (definition : TypeId) (args : List TypeId) :
    Always (makeGeneric definition args) cx r (Silent r) := by
  intro o ho
  unfold makeGeneric at ho
  cases hm : r.makeGeneric definition args with
  | error e => simp [hm] at ho
  | ok made =>
    simp only [hm, Except.ok.injEq] at ho
    subst ho
    exact ⟨rfl, Registry.grows_makeGeneric hm⟩

theorem knows_makeGeneric {definition id : TypeId} {args : List TypeId} {r' : Registry}
    (h : r.makeGeneric definition args = .ok (id, r')) : r'.Knows id := by
  obtain ⟨entry, hget, -⟩ := Registry.kind_makeGeneric h
  exact .inr ⟨entry, hget⟩

theorem knows_makeArray (r : Registry) (element : TypeId) (rank : Nat) :
    (r.makeArray element rank).2.Knows (r.makeArray element rank).1 := by
  obtain ⟨entry, hget, -⟩ := bind_eq_ok.1 (r.arrayElement_makeArray element rank)
  exact .inr ⟨entry, hget⟩

theorem settles_withRank {base : TypeId} (rank : Nat) (hbase : r.Knows base) :
    Settles excuse Registry.Knows (do return some (← withRank base rank)) cx r := by
  unfold withRank
  split
  · refine always_makeArray ?_
    exact (settles_some (knows_makeArray r base rank)).since (Registry.grows_makeArray ..)
  · exact always_pure_bind (settles_some hbase)

theorem settles_complainOfName {good : Registry → β → Prop} (name : String) (loc : Location) :
    Settles excuse good (do complainOfName name loc; return none) cx r := by
  unfold complainOfName
  refine always_bind (always_see ?_)
  split
  · intro o ho
    cases ho
    exact always_pure ⟨.refl r, nofun, fun _ => .inl (List.cons_ne_nil _ _)⟩
  · intro o ho
    cases ho
    exact always_pure ⟨.refl r, nofun, fun _ => .inl (List.cons_ne_nil _ _)⟩

theorem writtenTypes_settles {report : Bool} :
    ∀ {ts : List TypeName} {r : Registry},
      (∀ t ∈ ts, ∀ r, Settles (report = false) anything (writtenType report t) cx r) →
        Settles (report = false) anything (writtenTypes report ts) cx r
  | [], _, _ => settles_some trivial
  | t :: ts, r, h => by
    rw [writtenTypes]
    have hts (r' : Registry) : Settles (report = false) anything (writtenTypes report ts) cx r' :=
      writtenTypes_settles fun t ht => h t (by simp [ht])
    exact .both (h t (by simp) r) (fun r' _ => hts r') (fun _ _ _ _ => id)
      fun _ _ _ _ _ _ => settles_some trivial

/-- A written type is read and known, or the reason why not is filed if it is to be. -/
theorem writtenType_settles (report : Bool) :
    ∀ (t : TypeName) (cx : Context) (r : Registry),
      Settles (report = false) Registry.Knows (writtenType report t) cx r
  | .mk name args rank loc, cx, r => by
    rw [writtenType]
    refine always_see ?_
    split
    · cases report with
      | true => exact settles_complainOfName name loc
      | false => exact settles_none rfl
    · rename_i definition hlookup
      split
      · exact settles_withRank rank (.inl ⟨name, _, hlookup⟩)
      · refine Settles.andThen (writtenTypes_settles fun t ht r =>
          (writtenType_settles report t cx r).imp id fun _ _ _ => trivial) fun r' args _ _ => ?_
        refine always_makeGeneric fun base r'' hmade => ?_
        exact (settles_withRank rank (knows_makeGeneric hmade)).since
          (Registry.grows_makeGeneric hmade)
termination_by t => sizeOf t
decreasing_by
  have := List.sizeOf_lt_of_mem ht
  simp_all
  omega

/-! ## Reading without a report -/

/-- The step without what it files. -/
def silenced (x : Resolve α) : Resolve α := fun cx r =>
  (x cx r).map fun o => { o with filed := [] }

theorem silenced_bind (x : Resolve α) (f : α → Resolve β) :
    silenced (x >>= f) = silenced x >>= fun a => silenced (f a) := by
  funext cx r
  simp only [silenced, bind_run]
  cases x cx r with
  | error e => rfl
  | ok a => cases hf : f a.value cx a.registry <;> simp [hf, Except.map]

theorem silenced_complainOfName (name : String) (loc : Location) :
    silenced (do complainOfName name loc; return (none : Option α)) = pure none := by
  funext cx r
  simp only [silenced, complainOfName, bind_run, see]
  cases (List.range (maxTriedArity + 1)).find? fun arity => (r.lookup name arity).isSome <;> rfl

theorem silenced_makeGeneric (definition : TypeId) (types : List TypeId) :
    silenced (makeGeneric definition types) = makeGeneric definition types := by
  funext cx r
  unfold silenced makeGeneric
  cases r.makeGeneric definition types <;> rfl

theorem silenced_withRank (base : TypeId) (rank : Nat) :
    silenced (do return some (← withRank base rank)) = do return some (← withRank base rank) := by
  unfold withRank
  split <;> rfl

mutual

theorem writtenType_false : ∀ t : TypeName, writtenType false t = silenced (writtenType true t)
  | .mk name args rank loc => by
    rw [writtenType, writtenType, silenced_bind]
    refine congrArg _ (funext fun found => ?_)
    cases found with
    | none => exact (silenced_complainOfName name loc).symm
    | some definition =>
      cases args with
      | nil => exact (silenced_withRank definition rank).symm
      | cons arg args =>
        simp only [silenced_bind, writtenTypes_false]
        refine congrArg _ (funext fun types => ?_)
        cases types with
        | none => rfl
        | some types =>
          rw [andThen, silenced_bind, silenced_makeGeneric]
          exact congrArg _ (funext fun base => (silenced_withRank base rank).symm)

theorem writtenTypes_false :
    ∀ ts : List TypeName, writtenTypes false ts = silenced (writtenTypes true ts)
  | [] => rfl
  | t :: ts => by
    rw [writtenTypes, writtenTypes, silenced_bind, writtenType_false t]
    refine congrArg _ (funext fun type => ?_)
    rw [silenced_bind, writtenTypes_false ts]
    refine congrArg _ (funext fun types => ?_)
    cases type <;> cases types <;> rfl

end

/-- Reading a written type without reporting files nothing. -/
theorem writtenType_silent (t : TypeName) (cx : Context) (r : Registry) :
    Always (writtenType false t) cx r (Silent r) := by
  intro o ho
  have hgrows := (writtenType_settles false t cx r o ho).grows
  rw [writtenType_false, silenced] at ho
  cases hw : writtenType true t cx r with
  | error e => simp [hw, Except.map] at ho
  | ok reported =>
    rw [hw] at ho
    cases ho
    exact ⟨rfl, hgrows⟩

/-- A chain of names that denotes a type denotes a known one. -/
theorem pathType_answered (e : Expr) :
    Always (pathType e) cx r (Answered (∀ type ∈ ·, r.Knows type) r) := by
  unfold pathType
  split
  · rename_i root path _ _
    refine always_localType ?_
    split
    · exact answered_pure (by simp)
    · intro o ho
      cases ho
      exact ⟨rfl, rfl, fun type htype => .inl ⟨path, 0, htype⟩⟩
  · exact answered_pure (by simp)

theorem pathType_silent (e : Expr) : Always (pathType e) cx r (Silent r) :=
  (pathType_answered e).mono fun _ ho => ⟨ho.filed, ho.registry ▸ .refl _⟩

theorem exprType_silent (e : Expr) : Always (exprType e) cx r (Silent r) := by
  unfold exprType
  split
  · exact writtenType_silent _ _ _
  · exact pathType_silent _
  · exact pathType_silent _
  · exact silent_pure none

/-! ## The types of initializers -/

theorem concrete_silent (default type : TypeId) :
    Always (concrete default type) cx r (Silent r) := by
  refine always_ask fun dynamic _ => ?_
  split <;> exact silent_pure _

theorem objectType_silent (site : Site) : Always (objectType site) cx r (Silent r) := by
  refine always_isExtended ?_
  split
  · exact concrete_silent _ _
  · exact silent_pure _

theorem vectorType_silent (element : Option TypeName) :
    Always (vectorType element) cx r (Silent r) := by
  cases element with
  | none => exact silent_pure none
  | some element =>
    refine silent_bind (writtenType_silent _ _ _) fun r' type => ?_
    cases type with
    | none => exact silent_pure none
    | some type => exact silent_bind (makeGeneric_silent _ _) fun _ _ => silent_pure _

theorem arrayType_silent (element : Option TypeName) (site : Site) :
    Always (arrayType element site) cx r (Silent r) := by
  refine always_isExtended ?_
  split
  · exact concrete_silent _ _
  · refine silent_bind (vectorType_silent element) fun r' type => ?_
    split
    · exact silent_pure _
    · split
      · exact concrete_silent _ _
      · exact silent_pure _

/-! ## Names, members and elements -/

theorem literal_typed (loc : Location) (value : Literal) : Typed cx r (ofLiteral loc value) := by
  cases value <;> exact .node ⟨rfl, rfl, nofun⟩ nofun

theorem stringConstant_typed (loc : Location) (s : String) : Typed cx r (stringConstant loc s) :=
  .node ⟨rfl, rfl, nofun⟩ nofun

theorem ofName_settles (loc : Location) (name : String) :
    Settles excuse (Typed cx) (ofName loc name) cx r := by
  refine always_localType ?_
  split
  · rename_i type hlookup
    exact settles_some (.node ⟨rfl, hlookup⟩ nofun)
  · refine always_see ?_
    split
    · rename_i type hlookup
      exact settles_some (.node ⟨rfl, .inl ⟨name, 0, hlookup⟩⟩ nofun)
    · exact settles_fail

theorem ofTypeName_settles (type : TypeName) :
    Settles excuse (Typed cx) (ofTypeName type) cx r :=
  .andThen ((writtenType_settles true type cx r).excused nofun) fun _ _ _ hknown =>
    settles_some (.node ⟨rfl, hknown⟩ nofun)

/-- What `target.name` is, beyond being well typed : a place, and of the type of the member
unless it is looked up when the program runs. -/
def MemberOf (cx : Context) (ty : TypeId) (name : String) (r : Registry) (e : TypedExpr) : Prop :=
  Typed cx r e ∧ e.role = .place ∧
    (e.type = .dynamic ∨ ∃ p, r.findMember ty name = .ok (some p) ∧ p.2.valueType = e.type)

theorem staticMember_settles (loc : Location) {target : TypedExpr} (name : String)
    (hrole : target.role = .type) :
    Settles excuse (MemberOf cx target.type name) (memberOf loc target name) cx r := by
  unfold memberOf
  simp only [hrole, beq_self_eq_true, if_true]
  refine always_pure_bind (always_ask fun found hfound => ?_)
  split
  · rename_i owner m
    split
    · rename_i hstatic
      split
      · rename_i type hkind
        have hfield := (Registry.hasField_of_find hfound hkind).at_owner
        rw [hstatic] at hfield
        exact settles_some ⟨.node (.inl ⟨rfl, hfield⟩) nofun, rfl,
          .inr ⟨_, hfound, Member.valueType_of_field hkind⟩⟩
      · exact settles_fail
      · exact settles_fail
    · exact always_pure_bind settles_failNoMember
  · exact always_pure_bind settles_failNoMember

theorem instanceMember_settles (loc : Location) {target : TypedExpr} (name : String)
    (ht : Typed cx r target) (hrole : target.role ≠ .type) :
    Settles excuse (MemberOf cx target.type name) (memberOf loc target name) cx r := by
  have below : ∀ c ∈ [target], Typed cx r c := by simpa using ht
  have late (hl : r.Late target.type name (·.isStatic = false)) :
      Settles excuse (MemberOf cx target.type name)
        (pure (some (.dynamicMember ⟨.dynamic, .place, loc⟩ target name))) cx r :=
    settles_some ⟨.node ⟨rfl, rfl, hrole, hl⟩ below, rfl, .inl rfl⟩
  have hbeq : (target.role == .type) = false := by simpa using hrole
  unfold memberOf
  simp only [hbeq, Bool.false_eq_true, if_false]
  refine always_ask fun dynamic hdynamic => ?_
  split
  · rename_i h
    exact late (.inl (h ▸ hdynamic))
  · refine always_ask fun found hfound => ?_
    -- Without an instance member of the name, what is left is to look it up by key.
    have otherwise (hnone : ∀ p ∈ found, ¬p.2.isStatic = false) :
        Settles excuse (MemberOf cx target.type name) (do
          let keyed ← ask (·.isDynamicClass target.type)
          if keyed then return some (.dynamicMember ⟨.dynamic, .place, loc⟩ target name)
          else failNoMember loc target.type name) cx r := by
      refine always_ask fun keyed hkeyed => ?_
      split
      · rename_i h
        exact late (.inr ⟨h ▸ hkeyed, found, hfound, hnone⟩)
      · exact settles_failNoMember
    split
    · rename_i owner m
      split
      · rename_i hstatic
        split
        · rename_i type hkind
          have hfield := Registry.hasField_of_find hfound hkind
          rw [hstatic] at hfield
          exact settles_some ⟨.node ⟨rfl, hrole, hfield⟩ below, rfl,
            .inr ⟨_, hfound, Member.valueType_of_field hkind⟩⟩
        · exact settles_fail
        · exact settles_fail
      · rename_i hstatic
        exact otherwise (by simpa using hstatic)
    · exact otherwise (by simp)

theorem memberOf_settles (loc : Location) {target : TypedExpr} (name : String)
    (ht : Typed cx r target) :
    Settles excuse (MemberOf cx target.type name) (memberOf loc target name) cx r := by
  by_cases hrole : target.role = .type
  · exact staticMember_settles loc name hrole
  · exact instanceMember_settles loc name ht hrole

theorem elementType_answered (ty : TypeId) :
    Always (elementType ty) cx r (Answered (∀ type ∈ ·, r.HasElement ty type) r) := by
  have some_element {type : TypeId} (h : r.HasElement ty type) :
      Always (pure (some type)) cx r (Answered (∀ type ∈ ·, r.HasElement ty type) r) :=
    answered_pure (by simpa using h)
  refine always_ask fun dynamic hdynamic => ?_
  cases dynamic with
  | true => exact some_element (.inl ⟨hdynamic, rfl⟩)
  | false =>
    refine always_ask fun array harray => ?_
    split
    · exact some_element (.inr ⟨hdynamic, .inl ⟨_, harray⟩⟩)
    · refine always_ask fun found hfound => ?_
      split
      · exact some_element (.inr ⟨hdynamic, .inr ⟨harray, .inl ⟨_, hfound, rfl⟩⟩⟩)
      · refine always_ask fun keyed hkeyed => ?_
        split
        · rename_i h
          exact some_element (.inr ⟨hdynamic, .inr ⟨harray, .inr ⟨hfound, h ▸ hkeyed, rfl⟩⟩⟩)
        · exact answered_pure (by simp)

theorem elementOf_settles (loc : Location) {target : TypedExpr} {args : List TypedExpr}
    (ht : Typed cx r target) (hargs : ∀ e ∈ args, Typed cx r e) :
    Settles excuse (Typed cx) (elementOf loc target args) cx r := by
  refine always_answer (elementType_answered target.type) fun type htype => ?_
  split
  · exact settles_some (.node ⟨rfl, htype _ rfl⟩ (List.forall_mem_cons.2 ⟨ht, hargs⟩))
  · exact always_typeName settles_fail

/-! ## Calls -/

theorem findMethod_settles (loc : Location) (owner : TypeId) (name : String) (isStatic : Bool) :
    Settles excuse (fun r p => r.HasMethod owner name isStatic p.1 p.2)
      (findMethod loc owner name isStatic) cx r := by
  refine always_ask fun found hfound => ?_
  split
  · split
    · rename_i hstatic
      split
      · rename_i hkind
        have hmethod := Registry.hasMethod_of_find hfound hkind
        rw [hstatic] at hmethod
        exact settles_some hmethod
      · exact settles_fail
      · exact settles_fail
    · exact settles_failNoMember
  · exact settles_failNoMember

theorem staticCall_settles (loc : Location) (owner : TypeId) (name : String)
    {args : List TypedExpr} (hargs : ∀ e ∈ args, Typed cx r e) :
    Settles excuse (Typed cx) (staticCall loc owner name args) cx r :=
  .andThen (findMethod_settles loc owner name true) fun _ _ hgrows hmethod =>
    settles_some (.node ⟨rfl, hmethod.at_owner⟩ fun e he => (hargs e he).grow hgrows)

/-- The method is looked up on the type of the receiver. -/
theorem instanceCall_settles (loc : Location) {receiver : TypedExpr} (name : String)
    {args : List TypedExpr} (hrec : Typed cx r receiver) (hargs : ∀ e ∈ args, Typed cx r e) :
    Settles excuse (Typed cx) (instanceCall loc receiver receiver.type name args) cx r :=
  .andThen (findMethod_settles loc receiver.type name false) fun _ _ hgrows hmethod =>
    settles_some (.node ⟨rfl, hmethod⟩
      (List.forall_mem_cons.2 ⟨hrec.grow hgrows, fun e he => (hargs e he).grow hgrows⟩))

theorem methodCall_settles (loc : Location) {receiver : TypedExpr} (name : String)
    {args : List TypedExpr} (hrec : Typed cx r receiver) (hargs : ∀ e ∈ args, Typed cx r e) :
    Settles excuse (Typed cx) (methodCall loc receiver name args) cx r := by
  have below : ∀ c ∈ receiver :: args, Typed cx r c := List.forall_mem_cons.2 ⟨hrec, hargs⟩
  unfold methodCall
  split
  · exact staticCall_settles loc _ name hargs
  · rename_i hrole
    have late (hl : r.Late receiver.type name fun _ => True) :
        Settles excuse (Typed cx) (pure (some (lateCall loc receiver name args))) cx r :=
      settles_some (.node ⟨rfl, rfl, hrole, hl⟩ below)
    refine always_ask fun dynamic hdynamic => ?_
    split
    · rename_i h
      exact late (.inl (h ▸ hdynamic))
    · refine always_ask fun found hfound => ?_
      split
      · split
        · -- A field that holds a dynamic value is read, then called.
          refine always_ask fun callable hcallable => ?_
          split
          · rename_i h
            refine Settles.andThen (memberOf_settles loc name hrec)
              fun r' field hgrows ⟨hfield, hplace, htype⟩ => ?_
            have hdyn : r'.Dynamic field.type := by
              refine htype.imp_right fun ⟨p, hp, hptype⟩ => ?_
              cases (hgrows.findMember hfound).symm.trans hp
              exact hptype ▸ hgrows.isDynamic (h ▸ hcallable)
            exact settles_some (.node ⟨rfl, rfl, .inr ⟨by simp [hplace], hdyn⟩⟩
              (List.forall_mem_cons.2 ⟨hfield, fun e he => (hargs e he).grow hgrows⟩))
          · exact settles_fail
        · exact instanceCall_settles loc name hrec hargs
      · refine always_ask fun keyed hkeyed => ?_
        split
        · rename_i h
          exact late (.inr ⟨h ▸ hkeyed, none, hfound, nofun⟩)
        · exact instanceCall_settles loc name hrec hargs

theorem invoke_settles (loc : Location) (source : Expr) {callee : TypedExpr}
    {args : List TypedExpr} (hcallee : Typed cx r callee) (hargs : ∀ e ∈ args, Typed cx r e) :
    Settles excuse (Typed cx) (invoke loc source callee args) cx r := by
  unfold invoke
  dsimp only
  split
  · exact always_pure_bind settles_fail
  · rename_i hrole
    refine always_ask fun dynamic hdynamic => ?_
    split
    · rename_i h
      exact settles_some (.node ⟨rfl, rfl, .inr ⟨hrole, .inr (h ▸ hdynamic)⟩⟩
        (List.forall_mem_cons.2 ⟨hcallee, hargs⟩))
    · exact settles_fail

/-! ## Construction -/

theorem checkConstructible_checked (loc : Location) (type : TypeId) :
    Always (checkConstructible loc type) cx r (Checked (r.Constructible type) r) := by
  refine always_ask fun flags hflags => ?_
  split
  · refine always_typeName ?_
    intro o ho
    cases ho
    exact ⟨rfl, nofun, fun _ => List.cons_ne_nil _ _⟩
  · rename_i h
    exact always_pure ⟨rfl, fun _ => ⟨rfl, flags, hflags, by simpa using h⟩, nofun⟩

theorem construct_settles (loc : Location) (type : TypeId) {args : List TypedExpr}
    (hs : cx.settings.isScript = false) (hargs : ∀ e ∈ args, Typed cx r e) :
    Settles excuse (Typed cx) (construct loc type args) cx r :=
  .guarded (checkConstructible_checked loc type) fun hc =>
    settles_some (.node ⟨rfl, hs, hc⟩ hargs)

theorem newOf_settles (loc : Location) (source : Expr) {operand : TypedExpr}
    {args : List TypedExpr} (hs : cx.settings.isScript = false) (ht : Typed cx r operand)
    (hargs : ∀ e ∈ args, Typed cx r e) :
    Settles excuse (Typed cx) (newOf loc source operand args) cx r := by
  unfold newOf
  split
  · exact construct_settles loc _ hs hargs
  · rename_i hrole
    refine always_ask fun dynamic hdynamic => ?_
    split
    · rename_i h
      exact settles_some (.node ⟨rfl, rfl, hs, hrole, h ▸ hdynamic⟩
        (List.forall_mem_cons.2 ⟨ht, hargs⟩))
    · exact settles_fail

theorem newElementType_settles (target : Expr) :
    Settles excuse anything (newElementType target) cx r := by
  have complaint (unknown : Bool) (r : Registry) : Settles excuse anything
      (if unknown then fail .unknownType target.loc [target.display]
        else fail .valueNotType target.loc [target.display] : Resolve (Option TypeId)) cx r := by
    cases unknown <;> exact settles_fail
  unfold newElementType
  split
  · exact (writtenType_settles true _ cx r).imp nofun fun _ _ _ => trivial
  · refine Settles.after (exprType_silent target) fun r' type _ => ?_
    split
    · exact settles_some trivial
    · split
      · exact always_localType (always_pure_bind (complaint _ r'))
      · exact complaint false r'

theorem checkNewArray_checked (loc : Location) (target : Expr) (args : List Expr) :
    Always (checkNewArray loc target args) cx r
      (Checked (cx.settings.isExtended = true ∧ args ≠ []) r) := by
  have refused (message : Message) : Always (do complain message loc []; return false) cx r
      (Checked (cx.settings.isExtended = true ∧ args ≠ []) r) := by
    intro o ho
    cases ho
    exact ⟨rfl, nofun, fun _ => List.cons_ne_nil _ _⟩
  refine always_isExtended ?_
  split
  · exact refused .arrayOutsideExtended
  · rename_i hextended
    split
    · exact refused .jaggedArray
    · split
      · exact refused .arrayWithoutSize
      · rename_i hargs
        refine always_pure ⟨rfl, fun _ => ?_, nofun⟩
        exact ⟨rfl, by simpa using hextended, by simpa using hargs⟩

theorem newArray_settles (loc : Location) (element : TypeId) {dimensions : List TypedExpr}
    (hs : cx.settings.isScript = false) (hx : cx.settings.isExtended = true)
    (hne : dimensions ≠ []) (hdim : ∀ e ∈ dimensions, Typed cx r e) :
    Settles excuse (Typed cx) (newArray loc element dimensions) cx r := by
  have hgrows := Registry.grows_makeArray r element dimensions.length
  have helement := Registry.arrayElement_makeArray r element dimensions.length
  refine always_makeArray (Settles.since hgrows (settles_some ?_))
  exact .node ⟨rfl, hs, hx, hne, helement⟩ fun e he => (hdim e he).grow hgrows

/-! ## Initializers -/

/-- The field is an instance field of `type`. -/
def IsFieldOf (r : Registry) (type : TypeId) (field : Field) : Prop :=
  ∃ owner fieldType, r.HasField type field.name false owner fieldType

theorem isFieldOf_of_find {type owner : TypeId} {field : Field} {m : Member}
    (hfound : r.findMember type field.name = .ok (some (owner, m)))
    (hm : (!m.isStatic && m.isField) = true) : IsFieldOf r type field := by
  obtain ⟨hstatic, hfield⟩ : m.isStatic = false ∧ m.isField = true := by simpa using hm
  unfold Member.isField at hfield
  split at hfield
  · rename_i fieldType hkind
    exact ⟨owner, fieldType, hstatic ▸ Registry.hasField_of_find hfound hkind⟩
  · cases hfield

/-- A field that is unknown is complained of, and the check goes on with the rest. -/
theorem checkFields_checked (type : TypeId) :
    ∀ fields : List Field,
      Always (checkFields type fields) cx r (Checked (∀ f ∈ fields, IsFieldOf r type f) r)
  | [] => always_pure ⟨rfl, fun _ => ⟨rfl, nofun⟩, nofun⟩
  | .mk name loc value :: rest => by
    have ih := checkFields_checked type rest
    -- Both ways the rest is checked; a refusal is on file whatever becomes of it.
    have refused : Always (do
          complain .noSuchMember loc [← Resolve.typeName type, name]
          let restKnown ← checkFields type rest
          return false && restKnown) cx r
        (Checked (∀ f ∈ Field.mk name loc value :: rest, IsFieldOf r type f) r) := by
      refine always_typeName (always_bind fun o ho => ?_)
      cases ho
      refine always_bind (ih.mono fun o ho => always_pure ⟨ho.registry, nofun, fun _ => ?_⟩)
      exact List.cons_ne_nil _ _
    have accepted (hfield : IsFieldOf r type (.mk name loc value)) : Always (do
          let restKnown ← checkFields type rest
          return true && restKnown) cx r
        (Checked (∀ f ∈ Field.mk name loc value :: rest, IsFieldOf r type f) r) := by
      refine always_bind (ih.mono fun o ho => always_pure ⟨ho.registry, fun hv => ?_, fun hv => ?_⟩)
      · obtain ⟨hfiled, hrest⟩ := ho.passed hv
        exact ⟨by simp [hfiled], List.forall_mem_cons.2 ⟨hfield, hrest⟩⟩
      · simpa using ho.failed hv
    unfold checkFields
    refine always_ask fun found hfound => ?_
    cases found with
    | none => exact always_pure_bind refused
    | some p =>
      refine always_pure_bind ?_
      cases hm : !p.2.isStatic && p.2.isField with
      | true => exact accepted (isFieldOf_of_find hfound hm)
      | false => exact refused

/-- What the properties of an object initializer are : its fields, with well typed values. -/
def PropertiesOf (cx : Context) (fields : List Field) (r : Registry) (properties : List Property) :
    Prop :=
  properties.map Property.name = fields.map Field.name ∧ ∀ p ∈ properties, Typed cx r p.value

theorem objectOf_settles (loc : Location) (type : TypeId) {fields : List Field}
    {properties : List Property} (hp : PropertiesOf cx fields r properties) :
    Settles excuse (Typed cx) (objectOf loc type fields properties) cx r := by
  obtain ⟨hnames, hvalues⟩ := hp
  have takes (h : ∀ f ∈ fields, r.Takes type f.name) :
      ∀ p ∈ properties, r.Takes type p.name := by
    intro p hp
    have hmem : p.name ∈ fields.map Field.name := hnames ▸ List.mem_map_of_mem hp
    obtain ⟨f, hf, hname⟩ := List.mem_map.1 hmem
    exact hname ▸ h f hf
  refine always_isScript ?_
  split
  · rename_i hs
    exact settles_some (.node ⟨rfl, hs⟩ (by simpa [TypedExpr.children] using hvalues))
  · rename_i hs
    refine Settles.guarded (checkConstructible_checked loc type) fun hc => ?_
    have filled (h : ∀ f ∈ fields, r.Takes type f.name) :
        Settles excuse (Typed cx) (pure (some (.newWith (.value type loc) []
          (properties.map fun p => .named p.name p.value)))) cx r := by
      refine settles_some (.node ⟨rfl, by simpa using hs, hc, rfl, .inr fun x hx => ?_⟩ ?_)
      · obtain ⟨p, hp, rfl⟩ := List.mem_map.1 hx
        exact ⟨p.name, p.value, rfl, takes h p hp⟩
      · simpa [TypedExpr.children, Initializer.value] using hvalues
    refine always_ask fun keyed hkeyed => ?_
    split
    · rename_i h
      exact always_pure_bind (filled fun f _ => .inl (h ▸ hkeyed))
    · exact Settles.guarded (checkFields_checked type fields) fun hfields =>
        filled fun f hf => .inr (hfields f hf)

theorem arrayOf_settles (loc : Location) (type : TypeId) {elements : List TypedExpr}
    (helements : ∀ e ∈ elements, Typed cx r e) :
    Settles excuse (Typed cx) (arrayOf loc type elements) cx r := by
  refine always_isScript ?_
  split
  · rename_i hs
    exact settles_some (.node ⟨rfl, hs⟩ helements)
  · rename_i hscript
    have hs : cx.settings.isScript = false := by simpa using hscript
    refine always_ask fun array harray => ?_
    split
    · split
      · rename_i hrank
        have hlength : Typed cx r (lengthConstant loc elements.length) :=
          .node ⟨rfl, rfl, nofun⟩ nofun
        exact settles_some (.node ⟨rfl, hs, hrank ▸ harray, rfl⟩
          (List.forall_mem_cons.2 ⟨hlength, helements⟩))
      · exact always_typeName settles_fail
    · refine Settles.guarded (checkConstructible_checked loc type) fun hc =>
        settles_some (.node ⟨rfl, hs, hc, rfl, .inl ⟨harray, fun x hx => ?_⟩⟩ ?_)
      · obtain ⟨e, _, rfl⟩ := List.mem_map.1 hx
        exact ⟨e, rfl⟩
      · simpa [TypedExpr.children, Initializer.value] using helements

/-! ## Operators and literals of the dynamic language -/

theorem deleteOf_settles (loc : Location) {target key : TypedExpr} (indexed : Bool)
    (hs : cx.settings.isScript = false) (ht : Typed cx r target) (hkey : Typed cx r key) :
    Settles excuse (Typed cx) (deleteOf loc target key indexed) cx r := by
  have other : Settles excuse (Typed cx) (do
      if ← ask (·.isDynamicCapable target.type) then
        instanceCall loc (castTo .dynamicClass target) .dynamicClass deleteMethod [key]
      else fail .deleteOnFixedType loc []) cx r := by
    refine always_ask fun keyed hkeyed => ?_
    split
    · rename_i h
      have hcast : Typed cx r (castTo .dynamicClass target) :=
        .node ⟨rfl, hs, .inl ⟨rfl, h ▸ hkeyed⟩⟩ (by simpa [castTo, TypedExpr.children] using ht)
      exact instanceCall_settles loc deleteMethod hcast (by simpa using hkey)
    · exact settles_fail
  unfold deleteOf
  cases indexed with
  | false => exact always_pure_bind other
  | true =>
    refine always_ask fun onArray _ => ?_
    cases onArray with
    | true => exact settles_fail
    | false => exact other

theorem typeofOf_settles (loc : Location) {operand : TypedExpr}
    (hx : cx.settings.isExtended = false) (ht : Typed cx r operand) :
    Settles excuse (Typed cx) (typeofOf loc operand) cx r := by
  refine always_isScript ?_
  split
  · rename_i hs
    exact settles_some (.node ⟨rfl, rfl, hs, hx⟩ (by simpa [TypedExpr.children] using ht))
  · refine always_context (always_see ?_)
    split
    · exact staticCall_settles loc _ typeofMethod (by simpa using ht)
    · exact settles_fail

theorem inOf_settles (loc : Location) {key container : TypedExpr} (hkey : Typed cx r key)
    (ht : Typed cx r container) :
    Settles excuse (Typed cx) (inOf loc key container) cx r := by
  refine always_isScript ?_
  split
  · rename_i hs
    exact settles_some (.node ⟨rfl, rfl, hs⟩ (by simp [TypedExpr.children, hkey, ht]))
  · rename_i hs
    refine always_ask fun dynamic hdynamic => ?_
    split
    · rename_i h
      refine always_makeGeneric fun dictionary r' hmade => ?_
      have hgrows := Registry.grows_makeGeneric hmade
      have hcast : Typed cx r' (castTo dictionary container) := by
        refine .node ⟨rfl, by simpa using hs, .inr ⟨Registry.kind_makeGeneric hmade, ?_⟩⟩ ?_
        · exact hgrows.isDynamic (h ▸ hdynamic)
        · simpa [castTo, TypedExpr.children] using ht.grow hgrows
      exact (instanceCall_settles loc "ContainsKey" hcast (by simpa using hkey.grow hgrows)).since
        hgrows
    · refine always_ask fun keyed _ => ?_
      exact instanceCall_settles loc _ ht (by simpa using hkey)

theorem undefinedOf_settles (loc : Location) :
    Settles excuse (Typed cx) (do return some (← undefinedOf loc)) cx r := by
  refine always_bind (always_isScript ?_)
  split
  · rename_i hs
    exact always_pure (settles_some (.node ⟨rfl, rfl, hs⟩ nofun))
  · rename_i hs
    exact always_pure (settles_some
      (.node (.inr ⟨rfl, rfl, rfl, rfl, by simpa using hs⟩) nofun))

theorem regexOf_settles (loc : Location) (x : RegexLiteral) :
    Settles excuse (Typed cx) (regexOf loc x) cx r := by
  refine always_isScript ?_
  split
  · rename_i hs
    exact settles_some (.node ⟨rfl, rfl, fun _ => hs⟩ nofun)
  · rename_i hs
    exact construct_settles loc .regexp (by simpa using hs) (by simp [stringConstant_typed])

theorem xmlOf_settles (loc : Location) (x : XmlLiteral) :
    Settles excuse (Typed cx) (xmlOf loc x) cx r := by
  refine always_isScript ?_
  split
  · rename_i hs
    exact settles_some (.node ⟨rfl, rfl, fun _ => hs⟩ nofun)
  · rename_i hs
    exact construct_settles loc .xml (by simpa using hs) (by simp [stringConstant_typed])

end Dynascript.Resolve
