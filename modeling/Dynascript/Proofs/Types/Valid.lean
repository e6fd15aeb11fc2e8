import Dynascript.Proofs.Types.Built

/-!
# Valid handles

A registry is valid (`Registry.Valid`) if every handle it stores has a type behind it. An entry
is made from types that were there before (`TypeKind.parents`), while a signature may name any
type, also one that was declared later. Every registry that a program can build is valid
(`Built.valid`), and it stays so as instances and arrays are made (`Makes.valid`).

Such making leaves a trace that determines it (`Makes.unique`, `Makes.standard`) : beyond the
types it started from there is at most one entry of a kind, and its flags and names follow from
the kind.
-/

namespace Dynascript

/-- The types that an entry of this kind is made from. -/
def TypeKind.parents : TypeKind → List TypeId
  | builtin | parameter _ => []
  | declared body => body.base.toList ++ body.interfaces
  | array element _ => [element]
  | generic definition args => definition :: args

/-- The types that the members of an entry of this kind name. -/
def TypeKind.signature : TypeKind → List TypeId
  | declared body => body.members.flatMap Member.handles
  | _ => []

namespace Registry

variable {r r' R : Registry}

/-- The registry has a type behind the handle. -/
def Has (r : Registry) (id : TypeId) : Prop := id.index < r.size

theorem has_of_get {id : TypeId} {entry : TypeEntry} (h : r.table.get id = .ok entry) :
    r.Has id := by
  obtain ⟨hlt, -⟩ := Array.getElem?_eq_some_iff.1 (TypeTable.get_eq_ok.1 h)
  exact hlt

theorem Has.get {id : TypeId} (h : r.Has id) : ∃ entry, r.table.get id = .ok entry :=
  ⟨r.table.entries[id.index], TypeTable.get_eq_ok.2 (Array.getElem?_eq_getElem h)⟩

theorem Has.grow (h : r.Grows r') {id : TypeId} (hid : r.Has id) : r'.Has id :=
  Nat.lt_of_lt_of_le hid h.table.size_le

/-- An entry that was there before is the entry of the larger registry. -/
theorem Grows.get_of_has (h : r.Grows r') {id : TypeId} {entry : TypeEntry} (hid : r.Has id)
    (hget : r'.table.get id = .ok entry) : r.table.get id = .ok entry := by
  obtain ⟨old, hold⟩ := hid.get
  cases (TypeTable.get_mono h.table hold).symm.trans hget
  exact hold

/-- A registry that grew to no larger size is the same. -/
theorem Grows.eq_of_size (h : r.Grows r') (hsize : r'.size ≤ r.size) : r' = r := by
  obtain ⟨⟨entries⟩, names, root⟩ := r
  obtain ⟨⟨entries'⟩, names', root'⟩ := r'
  obtain ⟨htable, rfl, rfl⟩ := h
  have hentries : entries.toList = entries'.toList :=
    List.IsPrefix.eq_of_length_le htable (by simpa [size, TypeTable.size] using hsize)
  rw [Array.toList_inj.1 hentries]

/-- Every handle that the registry stores has a type behind it. -/
structure Valid (r : Registry) : Prop where
  first : r.Has .typeofHelper
  own : ∀ id entry, r.table.get id = .ok entry → entry.id = id
  parents : ∀ id entry, r.table.get id = .ok entry →
    ∀ parent ∈ entry.kind.parents, parent.index < id.index
  signature : ∀ id entry, r.table.get id = .ok entry → ∀ t ∈ entry.kind.signature, r.Has t
  names : ∀ b ∈ r.names, r.Has b.type

theorem Valid.has_parent (h : r.Valid) {id : TypeId} {entry : TypeEntry}
    (hget : r.table.get id = .ok entry) {parent : TypeId} (hp : parent ∈ entry.kind.parents) :
    r.Has parent :=
  Nat.lt_trans (h.parents id entry hget parent hp) (has_of_get hget)

/-- A type that every program starts with. -/
theorem Valid.has (h : r.Valid) {id : TypeId} (hid : id.index ≤ TypeId.typeofHelper.index) :
    r.Has id :=
  Nat.lt_of_le_of_lt hid h.first

theorem Valid.has_of_lookup (h : r.Valid) {name : String} {arity : Nat} {id : TypeId}
    (hl : r.lookup name arity = some id) : r.Has id := by
  obtain ⟨b, hb, rfl⟩ := Option.map_eq_some_iff.1 hl
  exact h.names b (List.mem_of_find?_eq_some hb)

theorem Valid.nameOfWithin (h : r.Valid) :
    ∀ {n : Nat} {id : TypeId}, r.Has id → id.index < n →
      ∃ name, r.table.nameOfWithin n id = .ok name
  | 0, _, _, hn => by omega
  | n + 1, id, hid, hn => by
    obtain ⟨entry, hget⟩ := hid.get
    -- What a type is made from was there before it.
    have ih (p : TypeId) (hp : p ∈ entry.kind.parents) :
        ∃ name, r.table.nameOfWithin n p = .ok name := by
      have hlt := h.parents id entry hget p hp
      exact h.nameOfWithin (h.has_parent hget hp) (by omega)
    rw [TypeTable.nameOfWithin, TypeTable.get_eq_ok.1 hget]
    cases hkind : entry.kind with
    | array element rank =>
      obtain ⟨name, hname⟩ := ih element (by simp [hkind, TypeKind.parents])
      simp only [hkind]
      exact ⟨_, bind_eq_ok.2 ⟨name, hname, rfl⟩⟩
    | generic definition args =>
      have hargs (p : TypeId) (hp : p ∈ args) : ∃ name, r.table.nameOfWithin n p = .ok name :=
        ih p (by simp [hkind, TypeKind.parents, hp])
      obtain ⟨names, hnames⟩ := TypeTable.exists_mapM hargs
      simp only [hkind]
      exact ⟨_, bind_eq_ok.2 ⟨names, hnames, rfl⟩⟩
    | builtin | declared | parameter =>
      simp only [hkind]
      exact ⟨_, rfl⟩

/-- The types of a valid registry have names in which nothing dangles. -/
theorem Valid.nameOf (h : r.Valid) {id : TypeId} (hid : r.Has id) :
    r.nameOf id = .ok (r.typeName id) := by
  obtain ⟨name, hname⟩ := h.nameOfWithin hid (Nat.lt_succ_of_lt hid)
  rw [typeName_of_nameOf hname]
  exact hname

/-! ## One more type -/

theorem size_addType (r : Registry) (flags : TypeFlags) (name space : String) (kind : TypeKind) :
    (r.addType flags name space kind).size = r.size + 1 :=
  Array.size_push ..

/-- An entry of the larger registry is an old one or the one that was added. -/
theorem get_addType {flags : TypeFlags} {name space : String} {kind : TypeKind} {id : TypeId}
    {entry : TypeEntry} (h : (r.addType flags name space kind).table.get id = .ok entry) :
    r.table.get id = .ok entry ∨
      id = r.table.next ∧ entry = ⟨r.table.next, flags, name, space, kind⟩ := by
  by_cases hid : r.Has id
  · exact .inl ((grows_addType r flags name space kind).get_of_has hid h)
  · have hlt : id.index < r.size + 1 := size_addType r flags name space kind ▸ has_of_get h
    have hindex : id.index = r.size := by
      unfold Has at hid
      omega
    obtain rfl : id = r.table.next := congrArg TypeId.mk hindex
    exact .inr ⟨rfl, Except.ok.inj (h.symm.trans (TypeTable.get_next ..))⟩

/-- One more type keeps a registry valid if the handles that come with it are. -/
theorem Valid.addType (h : r.Valid) {flags : TypeFlags} {name space : String} {kind : TypeKind}
    (hparents : ∀ parent ∈ kind.parents, r.Has parent)
    (hsignature : ∀ t ∈ kind.signature, r.Has t) : (r.addType flags name space kind).Valid := by
  have hgrows := grows_addType r flags name space kind
  refine ⟨h.first.grow hgrows, fun id entry hget => ?_, fun id entry hget => ?_,
    fun id entry hget => ?_, fun b hb => (h.names b hb).grow hgrows⟩
  · rcases get_addType hget with hold | ⟨rfl, rfl⟩
    · exact h.own id entry hold
    · rfl
  · rcases get_addType hget with hold | ⟨rfl, rfl⟩
    · exact h.parents id entry hold
    · exact hparents
  · rcases get_addType hget with hold | ⟨rfl, rfl⟩
    · exact fun t ht => (h.signature id entry hold t ht).grow hgrows
    · exact fun t ht => (hsignature t ht).grow hgrows

end Registry

/-! ## Instances and arrays -/

namespace TypeTable

variable {t : TypeTable} {kind : TypeKind} {id : TypeId}

/-- The entry behind `id` is of the kind. -/
def HasKind (t : TypeTable) (id : TypeId) (kind : TypeKind) : Prop :=
  ∃ entry, t.get id = .ok entry ∧ entry.kind = kind

/-- The first entry of the kind. -/
def First (t : TypeTable) (kind : TypeKind) (id : TypeId) : Prop :=
  t.HasKind id kind ∧ ∀ id', id'.index < id.index → ¬t.HasKind id' kind

theorem first_of_findKind? {p : TypeKind → Bool} (hp : ∀ k, p k = true ↔ k = kind)
    (h : t.findKind? p = some id) : t.First kind id := by
  obtain ⟨i, hi, rfl⟩ := Option.map_eq_some_iff.1 h
  obtain ⟨hlt, hkind, hbefore⟩ := Array.findIdx?_eq_some_iff_getElem.1 hi
  refine ⟨⟨_, get_eq_ok.2 (Array.getElem?_eq_getElem hlt), (hp _).1 hkind⟩, ?_⟩
  rintro ⟨j⟩ hj ⟨entry, hget, hentry⟩
  obtain ⟨hlt', rfl⟩ := Array.getElem?_eq_some_iff.1 (get_eq_ok.1 hget)
  exact hbefore j hj ((hp _).2 hentry)

theorem not_hasKind_of_findKind? {p : TypeKind → Bool} (hp : ∀ k, p k = true ↔ k = kind)
    (h : t.findKind? p = none) (id : TypeId) : ¬t.HasKind id kind := by
  rintro ⟨entry, hget, hentry⟩
  have hnone := Array.findIdx?_eq_none_iff.1 (Option.map_eq_none_iff.1 h)
  have hmem : entry ∈ t.entries := Array.mem_of_getElem? (get_eq_ok.1 hget)
  simpa [(hp entry.kind).2 hentry] using hnone entry hmem

variable {definition element : TypeId} {args : List TypeId} {rank : Nat}

theorem first_of_instance? (h : t.instance? definition args = some id) :
    t.First (.generic definition args) id :=
  first_of_findKind? (fun k => by cases k <;> simp) h

theorem not_hasKind_of_instance? (h : t.instance? definition args = none) (id : TypeId) :
    ¬t.HasKind id (.generic definition args) :=
  not_hasKind_of_findKind? (fun k => by cases k <;> simp) h id

theorem first_of_array? (h : t.array? element rank = some id) : t.First (.array element rank) id :=
  first_of_findKind? (fun k => by cases k <;> simp) h

theorem not_hasKind_of_array? (h : t.array? element rank = none) (id : TypeId) :
    ¬t.HasKind id (.array element rank) :=
  not_hasKind_of_findKind? (fun k => by cases k <;> simp) h id

end TypeTable

namespace Registry

variable {r r' R : Registry} {flags : TypeFlags} {name space : String} {kind : TypeKind}
  {id : TypeId}

/-- `r'` has an entry of the kind at `id` : the first of `r` or, if `r` has none, a new one. -/
inductive Ensures (r : Registry) (flags : TypeFlags) (name space : String) (kind : TypeKind) :
    TypeId → Registry → Prop
  | found {id : TypeId} (h : r.table.First kind id) : Ensures r flags name space kind id r
  | added (h : ∀ id, ¬r.table.HasKind id kind) :
      Ensures r flags name space kind r.table.next (r.addType flags name space kind)

/-- The flags and names that an instance or an array of the kind is made with. -/
def Standard (r : Registry) (flags : TypeFlags) (name space : String) : TypeKind → Prop
  | .generic definition _ => ∃ entry, r.table.get definition = .ok entry ∧
      flags = instanceFlags entry.flags ∧ name = entry.name ∧ space = entry.space
  | .array .. => flags = .array ∧ name = "" ∧ space = ""
  | _ => False

theorem makeGeneric_ensures {definition : TypeId} (args : List TypeId) {entry : TypeEntry}
    (h : r.table.get definition = .ok entry) :
    ∃ id r', r.makeGeneric definition args = .ok (id, r') ∧
      r.Ensures (instanceFlags entry.flags) entry.name entry.space (.generic definition args)
        id r' := by
  unfold makeGeneric
  cases hi : r.table.instance? definition args with
  | some id => exact ⟨id, r, rfl, .found (TypeTable.first_of_instance? hi)⟩
  | none =>
    refine ⟨_, _, bind_eq_ok.2 ⟨entry, h, rfl⟩, ?_⟩
    exact .added (TypeTable.not_hasKind_of_instance? hi)

theorem makeArray_ensures (r : Registry) (element : TypeId) (rank : Nat) :
    r.Ensures .array "" "" (.array element rank) (r.makeArray element rank).1
      (r.makeArray element rank).2 := by
  unfold makeArray
  cases hi : r.table.array? element rank with
  | some id => exact .found (TypeTable.first_of_array? hi)
  | none => exact .added (TypeTable.not_hasKind_of_array? hi)

theorem Ensures.grows (h : r.Ensures flags name space kind id r') : r.Grows r' := by
  cases h with
  | found => exact .refl r
  | added => exact grows_addType ..

theorem Ensures.has (h : r.Ensures flags name space kind id r') : r'.Has id := by
  cases h with
  | found h =>
    obtain ⟨entry, hget, -⟩ := h.1
    exact has_of_get hget
  | added => exact has_of_get (TypeTable.get_next ..)

theorem Standard.signature (h : r.Standard flags name space kind) : kind.signature = [] := by
  cases kind with
  | declared => cases h
  | _ => rfl

theorem Standard.grow (h : r.Grows r') (hs : r.Standard flags name space kind) :
    r'.Standard flags name space kind := by
  cases kind with
  | generic definition args =>
    obtain ⟨entry, hget, hrest⟩ := hs
    exact ⟨entry, TypeTable.get_mono h.table hget, hrest⟩
  | builtin | declared | array | parameter => exact hs

theorem Ensures.valid (hr : r.Valid) (hs : r.Standard flags name space kind)
    (hparents : ∀ parent ∈ kind.parents, r.Has parent)
    (h : r.Ensures flags name space kind id r') : r'.Valid := by
  cases h with
  | found => exact hr
  | added => exact hr.addType hparents (by simp [hs.signature])

/-! ## Making more of them -/

end Registry

/-- The operation makes an instance or an array. -/
def RegistryOp.IsMake : RegistryOp → Prop
  | makeGeneric .. | makeArray .. => True
  | declare _ | addMembers .. => False

/-- What such an operation does. -/
theorem RegistryOp.run_ensures {r r' : Registry} {op : RegistryOp} (hop : op.IsMake)
    (hhandles : ∀ id ∈ op.handles, r.Has id) (hrun : op.run r = .ok r') :
    ∃ flags name space kind id, r.Standard flags name space kind ∧
      (∀ parent ∈ kind.parents, r.Has parent) ∧ r.Ensures flags name space kind id r' := by
  cases op with
  | declare | addMembers => cases hop
  | makeGeneric definition args =>
    obtain ⟨entry, hget⟩ := (hhandles definition (by simp [handles])).get
    obtain ⟨id, made, hmade, hensures⟩ := Registry.makeGeneric_ensures args hget
    obtain ⟨p, hp, hrun⟩ := bind_eq_ok.1 hrun
    cases hmade.symm.trans hp
    cases hrun
    exact ⟨_, _, _, .generic definition args, id, ⟨entry, hget, rfl, rfl, rfl⟩, hhandles,
      hensures⟩
  | makeArray element rank =>
    cases hrun
    exact ⟨_, _, _, .array element rank, _, ⟨rfl, rfl, rfl⟩, hhandles,
      r.makeArray_ensures element rank⟩

namespace Registry

variable {r r' R : Registry}

/-- The registries that are `R` with more instances and arrays, each made from types that were
there. -/
inductive Makes (R : Registry) : Registry → Prop
  | refl : Makes R R
  | step {r r' : Registry} (op : RegistryOp) : Makes R r → op.IsMake →
      (∀ id ∈ op.handles, r.Has id) → op.run r = .ok r' → Makes R r'

theorem Makes.trans (h : R.Makes r) (h' : r.Makes r') : R.Makes r' := by
  induction h' with
  | refl => exact h
  | step op _ hop hhandles hrun ih => exact .step op ih hop hhandles hrun

theorem Makes.grows (h : R.Makes r) : R.Grows r := by
  induction h with
  | refl => exact .refl R
  | step op _ hop hhandles hrun ih =>
    obtain ⟨_, _, _, _, _, _, _, hensures⟩ := RegistryOp.run_ensures hop hhandles hrun
    exact ih.trans hensures.grows

theorem Makes.valid (hR : R.Valid) (h : R.Makes r) : r.Valid := by
  induction h with
  | refl => exact hR
  | step op _ hop hhandles hrun ih =>
    obtain ⟨_, _, _, _, _, hs, hparents, hensures⟩ := RegistryOp.run_ensures hop hhandles hrun
    exact hensures.valid ih hs hparents

/-- What was made has the flags and names that its kind asks for. -/
theorem Makes.standard (h : R.Makes r) {id : TypeId} {entry : TypeEntry} (hid : ¬R.Has id)
    (hget : r.table.get id = .ok entry) :
    r.Standard entry.flags entry.name entry.space entry.kind := by
  induction h with
  | refl => exact absurd (has_of_get hget) hid
  | @step r r' op _ hop hhandles hrun ih =>
    obtain ⟨_, _, _, _, _, hs, -, hensures⟩ := RegistryOp.run_ensures hop hhandles hrun
    cases hensures with
    | found => exact ih hget
    | added =>
      rcases get_addType hget with hold | ⟨rfl, rfl⟩
      · exact (ih hold).grow (grows_addType ..)
      · exact hs.grow (grows_addType ..)

/-- Of what was made there is one entry of a kind. -/
theorem Makes.unique (h : R.Makes r) {a b : TypeId} {kind : TypeKind} (ha : ¬R.Has a)
    (hb : ¬R.Has b) (hka : r.table.HasKind a kind) (hkb : r.table.HasKind b kind) : a = b := by
  induction h with
  | refl =>
    obtain ⟨entry, hget, -⟩ := hka
    exact absurd (has_of_get hget) ha
  | @step r r' op _ hop hhandles hrun ih =>
    obtain ⟨_, _, _, _, _, -, -, hensures⟩ := RegistryOp.run_ensures hop hhandles hrun
    cases hensures with
    | found => exact ih hka hkb
    | added hnone =>
      obtain ⟨entryA, hgetA, rfl⟩ := hka
      obtain ⟨entryB, hgetB, hkind⟩ := hkb
      rcases get_addType hgetA with holdA | ⟨rfl, rfl⟩ <;>
        rcases get_addType hgetB with holdB | ⟨rfl, rfl⟩
      · exact ih ⟨entryA, holdA, rfl⟩ ⟨entryB, holdB, hkind⟩
      · exact absurd ⟨entryA, holdA, hkind.symm⟩ (hnone a)
      · exact absurd ⟨entryB, holdB, hkind⟩ (hnone b)
      · rfl

/-! ## Every registry that a program can build -/

/-- A class takes its names after all that were given before. -/
theorem mem_names_addClass {d : ClassDecl} {b : NameBinding} (hb : b ∈ (r.addClass d).names) :
    b ∈ r.names ∨ b.type = r.table.next := by
  unfold addClass register at hb
  dsimp only at hb
  split at hb <;> simp only [addType, List.mem_append, List.mem_singleton] at hb
  · rcases hb with hb | rfl
    · exact .inl hb
    · exact .inr rfl
  · rcases hb with (hb | rfl) | rfl
    · exact .inl hb
    · exact .inr rfl
    · exact .inr rfl

theorem get_addClass {d : ClassDecl} {id : TypeId} {entry : TypeEntry}
    (h : (r.addClass d).table.get id = .ok entry) :
    r.table.get id = .ok entry ∨
      id = r.table.next ∧ entry = ⟨r.table.next, d.flags, d.name, d.space, .declared d.body⟩ := by
  rw [addClass_table] at h
  exact get_addType h

theorem Valid.addClass (h : r.Valid) {d : ClassDecl}
    (hd : ∀ id ∈ d.base.toList ++ d.interfaces ++ d.members.flatMap Member.handles, r.Has id) :
    (r.addClass d).Valid := by
  have hadded : (r.addType d.flags d.name d.space (.declared d.body)).Valid := by
    refine h.addType (fun parent hp => hd _ (List.mem_append_left _ hp)) fun t ht => hd _ ?_
    refine List.mem_append_right _ ?_
    simpa [TypeKind.signature, ClassDecl.body] using ht
  have hsize : (r.addClass d).table = (r.addType d.flags d.name d.space (.declared d.body)).table :=
    addClass_table r d
  have hhas (id : TypeId) : (r.addClass d).Has id ↔
      (r.addType d.flags d.name d.space (.declared d.body)).Has id := by
    simp only [Has, size, hsize]
  refine ⟨(hhas _).2 hadded.first, hsize ▸ hadded.own, hsize ▸ hadded.parents,
    fun id entry hget t ht => (hhas t).2 (hadded.signature id entry (hsize ▸ hget) t ht),
    fun b hb => (hhas _).2 ?_⟩
  rcases mem_names_addClass hb with hb | hb
  · exact hadded.names b hb
  · exact hb ▸ has_of_get (TypeTable.get_next ..)

/-- Members change nothing but what a class says of its members. -/
theorem get_addMembers {id : TypeId} {members : List Member}
    (hadd : r.addMembers id members = .ok r') {id' : TypeId} {entry' : TypeEntry}
    (hget : r'.table.get id' = .ok entry') :
    ∃ entry, r.table.get id' = .ok entry ∧ entry'.id = entry.id ∧
      entry'.kind.parents = entry.kind.parents ∧ ∀ t ∈ entry'.kind.signature,
        t ∈ entry.kind.signature ∨ t ∈ members.flatMap Member.handles := by
  obtain ⟨table, htable, hadd⟩ := bind_eq_ok.1 hadd
  obtain ⟨entry, hentry, htable⟩ := bind_eq_ok.1 htable
  cases hadd
  have unchanged (h : table = r.table) : ∃ entry, r.table.get id' = .ok entry ∧
      entry'.id = entry.id ∧ entry'.kind.parents = entry.kind.parents ∧
      ∀ t ∈ entry'.kind.signature, t ∈ entry.kind.signature ∨ t ∈ members.flatMap Member.handles :=
    ⟨entry', h ▸ hget, rfl, rfl, fun _ => .inl⟩
  cases hkind : entry.kind with
  | declared body =>
    simp only [hkind] at htable
    cases htable
    rw [TypeTable.get_eq_ok, Array.getElem?_setIfInBounds] at hget
    split at hget
    · rename_i hid
      obtain rfl : id = id' := congrArg TypeId.mk hid
      split at hget
      · cases hget
        refine ⟨entry, hentry, rfl, by simp [hkind, TypeKind.parents], fun t ht => ?_⟩
        simpa [hkind, TypeKind.signature, or_comm] using ht
      · cases hget
    · exact ⟨entry', TypeTable.get_eq_ok.2 hget, rfl, rfl, fun _ => .inl⟩
  | builtin | array | generic | parameter =>
    simp only [hkind] at htable
    cases htable
    exact unchanged rfl

theorem size_addMembers {id : TypeId} {members : List Member}
    (hadd : r.addMembers id members = .ok r') : r'.size = r.size ∧ r'.names = r.names := by
  obtain ⟨table, htable, hadd⟩ := bind_eq_ok.1 hadd
  obtain ⟨entry, hentry, htable⟩ := bind_eq_ok.1 htable
  cases hadd
  cases hkind : entry.kind with
  | declared body =>
    simp only [hkind] at htable
    cases htable
    exact ⟨Array.size_setIfInBounds, rfl⟩
  | builtin | array | generic | parameter =>
    simp only [hkind] at htable
    cases htable
    exact ⟨rfl, rfl⟩

theorem Valid.addMembers (h : r.Valid) {id : TypeId} {members : List Member}
    (hm : ∀ t ∈ members.flatMap Member.handles, r.Has t)
    (hadd : r.addMembers id members = .ok r') : r'.Valid := by
  obtain ⟨hsize, hnames⟩ := size_addMembers hadd
  have has {t : TypeId} (ht : r.Has t) : r'.Has t := by
    unfold Has
    rw [hsize]
    exact ht
  refine ⟨has h.first, fun id entry hget => ?_, fun id entry hget => ?_,
    fun id entry hget t ht => has ?_, fun b hb => has (h.names b (hnames ▸ hb))⟩
  · obtain ⟨old, hold, hid, -⟩ := get_addMembers hadd hget
    exact hid.trans (h.own id old hold)
  · obtain ⟨old, hold, -, hparents, -⟩ := get_addMembers hadd hget
    exact hparents ▸ h.parents id old hold
  · obtain ⟨old, hold, -, -, hsignature⟩ := get_addMembers hadd hget
    exact (hsignature t ht).elim (h.signature id old hold t) (hm t)

/-- The first registry before the helper behind `typeof`. -/
def runtime : Registry :=
  (empty "").hostTypes.typeParameters.runtimeInterfaces.runtimeSequences
    |>.stringDictionary
    |>.runtimeClasses

theorem bootstrap_eq (root : String) :
    bootstrap root = { runtime with root }.addClass (.typeofHelper root) :=
  rfl

theorem runtime_entries :
    ∀ i, (h : i < runtime.table.entries.size) → runtime.table.entries[i].id = ⟨i⟩ ∧
      (∀ parent ∈ runtime.table.entries[i].kind.parents, parent.index < i) ∧
      ∀ t ∈ runtime.table.entries[i].kind.signature, t.index ≤ TypeId.typeofHelper.index := by
  decide

theorem runtime_names : ∀ b ∈ runtime.names, b.type.index ≤ TypeId.typeofHelper.index := by
  decide

theorem bootstrap_valid (root : String) : (bootstrap root).Valid := by
  have has (t : TypeId) (ht : t.index ≤ TypeId.typeofHelper.index) : (bootstrap root).Has t := by
    have hsize : (bootstrap root).size = TypeId.typeofHelper.index + 1 := size_bootstrap root
    unfold Has
    omega
  have entries (id : TypeId) (entry : TypeEntry)
      (h : (bootstrap root).table.get id = .ok entry) : entry.id = id ∧
        (∀ parent ∈ entry.kind.parents, parent.index < id.index) ∧
        ∀ t ∈ entry.kind.signature, t.index ≤ TypeId.typeofHelper.index := by
    rw [bootstrap_eq] at h
    rcases get_addClass h with hold | ⟨rfl, rfl⟩
    · obtain ⟨hlt, rfl⟩ := Array.getElem?_eq_some_iff.1 (TypeTable.get_eq_ok.1 hold)
      exact runtime_entries id.index hlt
    · have hsignature : ∀ t ∈ [TypeId.object, .string], t.index ≤ TypeId.typeofHelper.index := by
        decide
      exact ⟨rfl, nofun, hsignature⟩
  refine ⟨has _ (Nat.le_refl _), fun id entry h => (entries id entry h).1,
    fun id entry h => (entries id entry h).2.1,
    fun id entry h t ht => has t ((entries id entry h).2.2 t ht), fun b hb => has _ ?_⟩
  rw [bootstrap_eq] at hb
  rcases mem_names_addClass hb with hb | hb
  · exact runtime_names b hb
  · have hnext : runtime.table.next.index ≤ TypeId.typeofHelper.index := by decide
    exact hb ▸ hnext

/-- The registries that a program can build are valid, whatever members it adds. -/
theorem Built.valid {root : String} {allowed : RegistryOp → Prop} (h : Built root allowed r) :
    r.Valid := by
  induction h with
  | start => exact bootstrap_valid root
  | @step r r' op _ _ hhandles hrun ih =>
    cases op with
    | declare d =>
      cases hrun
      exact ih.addClass hhandles
    | addMembers id members =>
      exact ih.addMembers (fun t ht => hhandles t (List.mem_cons_of_mem _ ht)) hrun
    | makeGeneric definition args =>
      exact (Makes.step (.makeGeneric definition args) .refl trivial hhandles hrun).valid ih
    | makeArray element rank =>
      exact (Makes.step (.makeArray element rank) .refl trivial hhandles hrun).valid ih

end Registry

end Dynascript
