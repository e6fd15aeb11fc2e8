import Dynascript.Proofs.Types.Valid

/-!
# Whole runs of a registry

`Registry.Runs` is any sequence of changes to a registry : declarations, members that are added
later, instances and arrays, in any order and with any handles that let the change go through.
Questions such as `lookup` return no registry, so they may stand anywhere in between.

A change is one of three (`Changes`) : members are filled in, a class is declared, or a type that
was asked for and is missing is made (`TypeRequest`). Nothing of an entry but its members is ever
changed (`TypeEntry.frame`, `Runs.frames`), and names are only added behind older ones
(`Runs.names`). What a registry holds of instances and arrays stays coherent (`Coherent`) : one
entry for each request, with the flags and names that follow from it. So a request has one answer
for the rest of a run (`Coherent.make_later`).
-/

namespace Dynascript

/-- A kind without the members, which may be added later. -/
def TypeKind.frame : TypeKind → TypeKind
  | declared body => declared { body with members := [] }
  | kind => kind

/-- An entry without its members. -/
def TypeEntry.frame (entry : TypeEntry) : TypeEntry := { entry with kind := entry.kind.frame }

/-- The kind can be asked for. -/
def TypeKind.isMade : TypeKind → Bool
  | generic .. | array .. => true
  | builtin | declared _ | parameter _ => false

/-- The entries in order, without their members. -/
def TypeTable.frames (t : TypeTable) : List TypeEntry := t.entries.toList.map TypeEntry.frame

theorem TypeEntry.frame_eq_frame {a b : TypeEntry} : a.frame = b.frame ↔
    a.id = b.id ∧ a.flags = b.flags ∧ a.name = b.name ∧ a.space = b.space ∧
      a.kind.frame = b.kind.frame :=
  TypeEntry.mk.injEq .. ▸ Iff.rfl

/-- An instance or an array that a registry is asked for. -/
inductive TypeRequest where
  | generic (definition : TypeId) (args : List TypeId)
  | array (element : TypeId) (rank : Nat)
deriving DecidableEq

namespace TypeRequest

/-- The kind of the entry that is asked for. -/
def kind : TypeRequest → TypeKind
  | generic definition args => .generic definition args
  | array element rank => .array element rank

/-- The definition of an instance has to be there. Nothing else has to. -/
def Known (t : TypeTable) : TypeRequest → Prop
  | generic definition _ => definition.index < t.size
  | array .. => True

theorem kind_injective {q q' : TypeRequest} (h : q.kind = q'.kind) : q = q' := by
  cases q <;> cases q' <;> cases h <;> rfl

theorem isMade_kind (q : TypeRequest) : q.kind.isMade = true := by
  cases q <;> rfl

/-- What is asked for has no members to leave out. -/
theorem frame_eq_kind {k : TypeKind} (q : TypeRequest) : k.frame = q.kind ↔ k = q.kind := by
  cases q <;> cases k <;> simp [TypeKind.frame, kind]

end TypeRequest

namespace Registry

variable {r r' r'' : Registry}

/-- `makeGeneric` or `makeArray`. -/
def make (r : Registry) : TypeRequest → Except Dangling (TypeId × Registry)
  | .generic definition args => r.makeGeneric definition args
  | .array element rank => .ok (r.makeArray element rank)

/-- The registries that any changes make of `r`, each of which goes through. -/
inductive Runs (r : Registry) : Registry → Prop
  | refl : Runs r r
  | step {r' r'' : Registry} (op : RegistryOp) : Runs r r' → op.run r' = .ok r'' → Runs r r''

/-! ## What one change does -/

/-- What is made was missing, and it is made as its kind asks. -/
theorem make_cases {q : TypeRequest} {id : TypeId} (h : r.make q = .ok (id, r')) :
    r.table.First q.kind id ∧ r' = r ∨
      (∀ id, ¬r.table.HasKind id q.kind) ∧ id = r.table.next ∧ ∃ flags name space,
        r.Standard flags name space q.kind ∧ r' = r.addType flags name space q.kind := by
  cases q with
  | generic definition args =>
    simp only [make, makeGeneric] at h
    cases hi : r.table.instance? definition args with
    | some found =>
      simp only [hi] at h
      cases h
      exact .inl ⟨TypeTable.first_of_instance? hi, rfl⟩
    | none =>
      simp only [hi] at h
      obtain ⟨entry, hentry, h⟩ := bind_eq_ok.1 h
      cases h
      exact .inr ⟨TypeTable.not_hasKind_of_instance? hi, rfl, _, _, _,
        ⟨entry, hentry, rfl, rfl, rfl⟩, rfl⟩
  | array element rank =>
    have hensures := r.makeArray_ensures element rank
    rw [Except.ok.inj h] at hensures
    cases hensures with
    | found hfirst => exact .inl ⟨hfirst, rfl⟩
    | added hnone => exact .inr ⟨hnone, rfl, _, _, _, ⟨rfl, rfl, rfl⟩, rfl⟩

theorem frames_addMembers {id : TypeId} {members : List Member}
    (h : r.addMembers id members = .ok r') : r'.table.frames = r.table.frames := by
  obtain ⟨table, htable, h⟩ := bind_eq_ok.1 h
  obtain ⟨entry, hentry, htable⟩ := bind_eq_ok.1 htable
  cases h
  cases hkind : entry.kind with
  | declared body =>
    simp only [hkind] at htable
    cases htable
    have hold : r.table.frames[id.index]? = some entry.frame := by
      simp [TypeTable.frames, TypeTable.get_eq_ok.1 hentry]
    have hframe : entry.frame = TypeEntry.frame { entry with
        kind := .declared { body with members := members.reverse ++ body.members } } := by
      simp [TypeEntry.frame, TypeKind.frame, hkind]
    obtain ⟨hlt, heq⟩ := List.getElem?_eq_some_iff.1 hold
    simp only [TypeTable.frames, Array.toList_setIfInBounds, List.map_set, ← hframe]
    exact heq ▸ List.set_getElem_self hlt
  | builtin | array | generic | parameter =>
    simp only [hkind] at htable
    cases htable
    rfl

/-- What a change makes of a registry. -/
inductive Changes (r : Registry) : Registry → Prop
  /-- Members are filled in, or nothing happens. -/
  | filled {r' : Registry} (frames : r'.table.frames = r.table.frames)
      (names : r'.names = r.names) : Changes r r'
  | declared (d : ClassDecl) : Changes r (r.addClass d)
  | made (q : TypeRequest) {flags : TypeFlags} {name space : String}
      (missing : ∀ id, ¬r.table.HasKind id q.kind) (standard : r.Standard flags name space q.kind) :
      Changes r (r.addType flags name space q.kind)

theorem changes_of_make {q : TypeRequest} {id : TypeId} (h : r.make q = .ok (id, r')) :
    r.Changes r' := by
  rcases make_cases h with ⟨-, rfl⟩ | ⟨hnone, -, flags, name, space, hs, rfl⟩
  · exact .filled rfl rfl
  · exact .made q hnone hs

theorem changes_of_run {op : RegistryOp} (h : op.run r = .ok r') : r.Changes r' := by
  cases op with
  | declare d =>
    cases h
    exact .declared d
  | addMembers id members => exact .filled (frames_addMembers h) (size_addMembers h).2
  | makeGeneric definition args =>
    obtain ⟨⟨id, made⟩, hmade, h⟩ := bind_eq_ok.1 h
    cases h
    exact changes_of_make (q := .generic definition args) hmade
  | makeArray element rank =>
    cases h
    exact changes_of_make (q := .array element rank) rfl

/-! ## What is never changed -/

theorem frames_addType (r : Registry) (flags : TypeFlags) (name space : String) (kind : TypeKind) :
    r.table.frames <+: (r.addType flags name space kind).table.frames :=
  List.IsPrefix.map _ (TypeTable.extends_add r.table flags name space kind)

theorem names_addClass (r : Registry) (d : ClassDecl) : r.names <+: (r.addClass d).names := by
  unfold addClass register
  dsimp only
  split
  · exact List.prefix_append _ _
  · exact (List.prefix_append _ _).trans (List.prefix_append _ _)

theorem Changes.frames (h : r.Changes r') : r.table.frames <+: r'.table.frames := by
  cases h with
  | filled frames names => exact frames ▸ List.prefix_refl _
  | declared d =>
    rw [addClass_table]
    exact frames_addType r ..
  | made q missing standard => exact frames_addType r ..

theorem Changes.names (h : r.Changes r') : r.names <+: r'.names := by
  cases h with
  | filled frames names => exact names ▸ List.prefix_refl _
  | declared d => exact names_addClass r d
  | made q missing standard => exact List.prefix_refl _

theorem Runs.frames (h : r.Runs r') : r.table.frames <+: r'.table.frames := by
  induction h with
  | refl => exact List.prefix_refl _
  | step op _ hrun ih => exact ih.trans (changes_of_run hrun).frames

theorem Runs.names (h : r.Runs r') : r.names <+: r'.names := by
  induction h with
  | refl => exact List.prefix_refl _
  | step op _ hrun ih => exact ih.trans (changes_of_run hrun).names

/-- An entry is found again under its handle, with the same frame. -/
theorem get_of_frames (h : r.table.frames <+: r'.table.frames) {id : TypeId} {entry : TypeEntry}
    (hget : r.table.get id = .ok entry) :
    ∃ entry', r'.table.get id = .ok entry' ∧ entry'.frame = entry.frame := by
  have hframe : r.table.frames[id.index]? = some entry.frame := by
    simp [TypeTable.frames, TypeTable.get_eq_ok.1 hget]
  obtain ⟨hlt, heq⟩ := List.getElem?_eq_some_iff.1 hframe
  have hframe' : r'.table.frames[id.index]? = some entry.frame :=
    heq ▸ List.prefix_iff_getElem?.1 h id.index hlt
  simp only [TypeTable.frames, List.getElem?_map, Array.getElem?_toList,
    Option.map_eq_some_iff] at hframe'
  obtain ⟨entry', hget', hsame⟩ := hframe'
  exact ⟨entry', TypeTable.get_eq_ok.2 hget', hsame⟩

theorem hasKind_of_frames (h : r.table.frames <+: r'.table.frames) {q : TypeRequest} {id : TypeId}
    (hkind : r.table.HasKind id q.kind) : r'.table.HasKind id q.kind := by
  obtain ⟨entry, hget, hentry⟩ := hkind
  obtain ⟨entry', hget', hsame⟩ := get_of_frames h hget
  refine ⟨entry', hget', (TypeRequest.frame_eq_kind q).1 ?_⟩
  exact (congrArg TypeEntry.kind hsame).trans ((TypeRequest.frame_eq_kind q).2 hentry)

theorem has_of_frames (h : r.table.frames <+: r'.table.frames) {id : TypeId} (hid : r.Has id) :
    r'.Has id := by
  obtain ⟨entry, hget⟩ := hid.get
  obtain ⟨entry', hget', -⟩ := get_of_frames h hget
  exact has_of_get hget'

theorem Standard.of_frames (h : r.table.frames <+: r'.table.frames) {flags : TypeFlags}
    {name space : String} {kind : TypeKind} (hs : r.Standard flags name space kind) :
    r'.Standard flags name space kind := by
  cases kind with
  | generic definition args =>
    obtain ⟨entry, hget, hflags, hname, hspace⟩ := hs
    obtain ⟨entry', hget', hsame⟩ := get_of_frames h hget
    obtain ⟨-, hflags', hname', hspace', -⟩ := TypeEntry.frame_eq_frame.1 hsame
    exact ⟨entry', hget', hflags' ▸ hflags, hname' ▸ hname, hspace' ▸ hspace⟩
  | builtin | declared | array | parameter => exact hs

/-! ## Coherent tables -/

/-- Each entry knows its handle, and there is one entry for a request, made as its kind asks. -/
structure Coherent (r : Registry) : Prop where
  own : ∀ id entry, r.table.get id = .ok entry → entry.id = id
  standard : ∀ (q : TypeRequest) id entry, r.table.get id = .ok entry → entry.kind = q.kind →
    r.Standard entry.flags entry.name entry.space entry.kind
  unique : ∀ (q : TypeRequest) i j, r.table.HasKind i q.kind → r.table.HasKind j q.kind → i = j

theorem Coherent.addClass (h : r.Coherent) (d : ClassDecl) : (r.addClass d).Coherent := by
  have hframes : r.table.frames <+: (r.addClass d).table.frames := (Changes.declared d).frames
  have hold {q : TypeRequest} {id : TypeId} {entry : TypeEntry}
      (hget : (r.addClass d).table.get id = .ok entry) (hkind : entry.kind = q.kind) :
      r.table.get id = .ok entry := by
    rcases get_addClass hget with hold | ⟨rfl, rfl⟩
    · exact hold
    · cases q <;> cases hkind
  refine ⟨fun id entry hget => ?_, fun q id entry hget hkind => ?_, ?_⟩
  · rcases get_addClass hget with hold | ⟨rfl, rfl⟩
    · exact h.own id entry hold
    · rfl
  · exact (h.standard q id entry (hold hget hkind) hkind).of_frames hframes
  · rintro q i j ⟨entry, hget, hkind⟩ ⟨entry', hget', hkind'⟩
    exact h.unique q i j ⟨entry, hold hget hkind, hkind⟩ ⟨entry', hold hget' hkind', hkind'⟩

theorem Coherent.made (h : r.Coherent) {q : TypeRequest} {flags : TypeFlags} {name space : String}
    (hnone : ∀ id, ¬r.table.HasKind id q.kind) (hs : r.Standard flags name space q.kind) :
    (r.addType flags name space q.kind).Coherent := by
  have hframes := r.frames_addType flags name space q.kind
  refine ⟨fun id entry hget => ?_, fun p id entry hget hkind => ?_, ?_⟩
  · rcases get_addType hget with hold | ⟨rfl, rfl⟩
    · exact h.own id entry hold
    · rfl
  · rcases get_addType hget with hold | ⟨rfl, rfl⟩
    · exact (h.standard p id entry hold hkind).of_frames hframes
    · exact hs.of_frames hframes
  · rintro p i j ⟨entry, hget, hkind⟩ ⟨entry', hget', hkind'⟩
    rcases get_addType hget with hold | ⟨rfl, rfl⟩ <;>
      rcases get_addType hget' with hold' | ⟨rfl, rfl⟩
    · exact h.unique p i j ⟨entry, hold, hkind⟩ ⟨entry', hold', hkind'⟩
    · exact absurd ⟨entry, hold, hkind.trans hkind'.symm⟩ (hnone i)
    · exact absurd ⟨entry', hold', hkind'.trans hkind.symm⟩ (hnone j)
    · rfl

theorem Coherent.filled (h : r.Coherent) (hframes : r'.table.frames = r.table.frames) :
    r'.Coherent := by
  have hto : r.table.frames <+: r'.table.frames := hframes ▸ List.prefix_refl _
  have hback : r'.table.frames <+: r.table.frames := hframes ▸ List.prefix_refl _
  refine ⟨fun id entry hget => ?_, fun q id entry hget hkind => ?_, fun q i j hi hj => ?_⟩
  · obtain ⟨old, hold, hsame⟩ := get_of_frames hback hget
    exact (congrArg TypeEntry.id hsame).symm.trans (h.own id old hold)
  · obtain ⟨old, hold, hsame⟩ := get_of_frames hback hget
    obtain ⟨-, hflags, hname, hspace, hframe⟩ := TypeEntry.frame_eq_frame.1 hsame
    have hkind' : old.kind = q.kind :=
      (TypeRequest.frame_eq_kind q).1 (hframe.trans ((TypeRequest.frame_eq_kind q).2 hkind))
    have hs := (h.standard q id old hold hkind').of_frames hto
    rwa [hflags, hname, hspace, hkind', ← hkind] at hs
  · exact h.unique q i j (hasKind_of_frames hback hi) (hasKind_of_frames hback hj)

theorem Changes.coherent (hr : r.Coherent) (h : r.Changes r') : r'.Coherent := by
  cases h with
  | filled frames names => exact hr.filled frames
  | declared d => exact hr.addClass d
  | made q missing standard => exact hr.made missing standard

theorem Runs.coherent (hr : r.Coherent) (h : r.Runs r') : r'.Coherent := by
  induction h with
  | refl => exact hr
  | step op _ hrun ih => exact (changes_of_run hrun).coherent ih

/-! ## Runs from the first registry -/

/-- The one instance or array that the first registry has is `IDictionary.<String, Object>`. -/
theorem runtime_made :
    ∀ i, (h : i < runtime.table.entries.size) →
      runtime.table.entries[i].kind.isMade = true → i = 16 := by
  decide

theorem runtime_coherent : runtime.Coherent := by
  have made {q : TypeRequest} {id : TypeId} {entry : TypeEntry}
      (hget : runtime.table.get id = .ok entry) (hkind : entry.kind = q.kind) : id = ⟨16⟩ := by
    obtain ⟨hlt, rfl⟩ := Array.getElem?_eq_some_iff.1 (TypeTable.get_eq_ok.1 hget)
    exact congrArg TypeId.mk (runtime_made id.index hlt (hkind ▸ q.isMade_kind))
  refine ⟨fun id entry hget => ?_, fun q id entry hget hkind => ?_, ?_⟩
  · obtain ⟨hlt, rfl⟩ := Array.getElem?_eq_some_iff.1 (TypeTable.get_eq_ok.1 hget)
    exact (runtime_entries id.index hlt).1
  · obtain rfl := made hget hkind
    cases hget
    exact ⟨_, rfl, rfl, rfl, rfl⟩
  · rintro q i j ⟨entry, hget, hkind⟩ ⟨entry', hget', hkind'⟩
    exact (made hget hkind).trans (made hget' hkind').symm

theorem bootstrap_coherent (root : String) : (bootstrap root).Coherent := by
  have hruntime : { runtime with root }.Coherent := runtime_coherent.filled rfl
  rw [bootstrap_eq]
  exact hruntime.addClass (.typeofHelper root)

theorem Coherent.known_iff (h : r.Coherent) (q : TypeRequest) :
    (∃ made, r.make q = .ok made) ↔ q.Known r.table := by
  cases q with
  | array element rank => exact ⟨fun _ => trivial, fun _ => ⟨_, rfl⟩⟩
  | generic definition args =>
    refine ⟨?_, fun hknown => ?_⟩
    · rintro ⟨⟨id, made⟩, hmade⟩
      rcases make_cases hmade with ⟨⟨⟨entry, hget, hkind⟩, -⟩, -⟩ | ⟨-, -, _, _, _, hs, -⟩
      · have hs := h.standard _ id entry hget hkind
        rw [hkind] at hs
        obtain ⟨_, hdefinition, -⟩ := hs
        exact has_of_get hdefinition
      · obtain ⟨_, hdefinition, -⟩ := hs
        exact has_of_get hdefinition
    · obtain ⟨entry, hget⟩ := Has.get hknown
      obtain ⟨id, made, hmade, -⟩ := makeGeneric_ensures args hget
      exact ⟨_, hmade⟩

theorem hasKind_make {q : TypeRequest} {id : TypeId} (h : r.make q = .ok (id, r')) :
    r'.table.HasKind id q.kind := by
  rcases make_cases h with ⟨hfirst, rfl⟩ | ⟨-, rfl, flags, name, space, -, rfl⟩
  · exact hfirst.1
  · exact ⟨_, TypeTable.get_next .., rfl⟩

/-- A request for what is there finds it and changes nothing. -/
theorem Coherent.make_again (h : r.Coherent) {q : TypeRequest} {id : TypeId}
    (hkind : r.table.HasKind id q.kind) (hknown : q.Known r.table) : r.make q = .ok (id, r) := by
  obtain ⟨⟨id', r'⟩, hmade⟩ := (h.known_iff q).2 hknown
  rcases make_cases hmade with ⟨hfirst, rfl⟩ | ⟨hnone, -⟩
  · rw [hmade, h.unique q id' id hfirst.1 hkind]
  · exact absurd hkind (hnone id)

theorem known_of_frames (h : r.table.frames <+: r'.table.frames) {q : TypeRequest}
    (hq : q.Known r.table) : q.Known r'.table := by
  cases q with
  | generic definition args => exact has_of_frames h hq
  | array element rank => trivial

theorem lookup_of_names (h : r.names <+: r'.names) {name : String} {arity : Nat} {id : TypeId}
    (hl : r.lookup name arity = some id) : r'.lookup name arity = some id := by
  obtain ⟨b, hb, rfl⟩ := Option.map_eq_some_iff.1 hl
  exact Option.map_eq_some_iff.2 ⟨b, h.find?_eq_some hb, rfl⟩

theorem names_of_run {op : RegistryOp} (hop : ∀ d, op ≠ .declare d) (h : op.run r = .ok r') :
    r'.names = r.names := by
  cases op with
  | declare d => exact absurd rfl (hop d)
  | addMembers id members => exact (size_addMembers h).2
  | makeGeneric definition args =>
    obtain ⟨made, hmade, h⟩ := bind_eq_ok.1 h
    cases h
    exact (grows_makeGeneric hmade).names
  | makeArray element rank =>
    cases h
    exact (grows_makeArray r element rank).names

/-- A request that was answered has the same answer ever after, and no other request has it. -/
theorem Coherent.make_later (hr : r.Coherent) {q : TypeRequest} {i : TypeId}
    (hmade : r.make q = .ok (i, r')) (hruns : r'.Runs r'') :
    r''.make q = .ok (i, r'') ∧
      ∀ (q' : TypeRequest) j made, r''.make q' = .ok (j, made) → (i = j ↔ q = q') := by
  have hchanges : r.Changes r' := changes_of_make hmade
  have hkind : r'.table.HasKind i q.kind := hasKind_make hmade
  have hcoherent : r''.Coherent := hruns.coherent (hchanges.coherent hr)
  have hknown : q.Known r''.table := known_of_frames (hchanges.frames.trans hruns.frames)
    ((hr.known_iff q).1 ⟨_, hmade⟩)
  have hagain : r''.make q = .ok (i, r'') :=
    hcoherent.make_again (hasKind_of_frames hruns.frames hkind) hknown
  refine ⟨hagain, fun q' j made hmade' => ⟨fun hij => ?_, fun hq => ?_⟩⟩
  · -- the one entry is of both kinds
    obtain ⟨entry, hget, hentry⟩ : made.table.HasKind i q.kind :=
      hasKind_of_frames (hruns.frames.trans (changes_of_make hmade').frames) hkind
    obtain ⟨entry', hget', hentry'⟩ : made.table.HasKind j q'.kind := hasKind_make hmade'
    cases (hij ▸ hget).symm.trans hget'
    exact TypeRequest.kind_injective (hentry.symm.trans hentry')
  · subst hq
    cases hagain.symm.trans hmade'
    rfl

end Registry

end Dynascript
