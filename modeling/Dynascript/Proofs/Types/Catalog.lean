import Dynascript.Proofs.Types.Runs
import Dynascript.Types.Catalog

/-!
# Indexes and the table

A catalog answers from its indexes, a registry by searching its table. The two give the same
answers (`Catalog.Refines`) : a change does the same to both, or fails on both at the same handle
(`Refines.run`), and so does each step on the way to the first catalog (`Refines.boot`). So a run
of one is matched by a run of the other (`Refines.follow`, `Refines.lead`), as long as there are
words for the handles (`Catalog.Fits`).

Names too are a search of the table (`TypeTable.named?`, `Registry.Named`) : a name leads to the
first type that answers to it. `Catalog.table_invariant_of_runs` puts the parts together for every
catalog that a run reaches from the first one.
-/

namespace Dynascript

/-! ## Indexes -/

namespace Index

variable {κ : Type} [DecidableEq κ]

theorem get?_insert (x : Index κ) (key key' : κ) (id : TypeId) :
    (x.insert key id).get? key' = if key = key' then some id else x.get? key' := by
  by_cases h : key = key' <;> simp [insert, get?, h]

theorem get?_insertNew (x : Index κ) (key key' : κ) (id : TypeId) :
    (x.insertNew key id).get? key' =
      (x.get? key').or (if key = key' then some id else none) := by
  unfold insertNew
  cases htaken : x.get? key with
  | some taken =>
    by_cases h : key = key'
    · subst h
      rw [htaken, Option.some_or]
    · rw [if_neg h, Option.or_none]
  | none =>
    simp only [get?_insert]
    by_cases h : key = key'
    · subst h
      rw [htaken, Option.none_or]
    · rw [if_neg h, if_neg h, Option.or_none]

end Index

/-! ## Numbers of names -/

namespace NameTable

variable {t : NameTable} {name other : String} {number : Nat}

theorem getElem?_of_handle? (h : t.handle? name = some number) : t.names[number]? = some name := by
  obtain ⟨hlt, hname, -⟩ := Array.findIdx?_eq_some_iff_getElem.1 h
  rw [Array.getElem?_eq_getElem hlt, eq_of_beq hname]

theorem handle?_lt (h : t.handle? name = some number) : number < t.size :=
  (Array.getElem?_eq_some_iff.1 (getElem?_of_handle? h)).1

/-- Different names have different numbers. -/
theorem handle?_injective (h : t.handle? name = some number) (h' : t.handle? other = some number) :
    name = other :=
  Option.some.inj ((getElem?_of_handle? h).symm.trans (getElem?_of_handle? h'))

/-- A name keeps its number, or it is new and gets the next one. -/
theorem intern_cases (t : NameTable) (name : String) :
    (∃ number, t.handle? name = some number ∧ t.intern name = (number, t)) ∨
      t.handle? name = none ∧ t.intern name = (t.size, ⟨t.names.push name⟩) := by
  unfold intern
  cases h : t.handle? name with
  | some number => exact .inl ⟨number, rfl, rfl⟩
  | none => exact .inr ⟨rfl, rfl⟩

theorem handle?_intern (t : NameTable) (name other : String) :
    (t.intern name).2.handle? other =
      if name = other then some (t.intern name).1 else t.handle? other := by
  rcases t.intern_cases name with ⟨number, hnumber, hintern⟩ | ⟨hnew, hintern⟩
  · rw [hintern]
    split
    · subst other
      exact hnumber
    · rfl
  · rw [hintern, handle?, Array.findIdx?_push]
    change (t.handle? other).or _ = _
    by_cases h : name = other
    · subst h
      simp [hnew, size]
    · simp [h]

theorem intern_lt (t : NameTable) (name : String) : (t.intern name).1 < (t.intern name).2.size :=
  handle?_lt (by rw [handle?_intern, if_pos rfl])

theorem size_le_intern (t : NameTable) (name : String) : t.size ≤ (t.intern name).2.size := by
  rcases t.intern_cases name with ⟨number, -, hintern⟩ | ⟨-, hintern⟩
  · exact hintern ▸ Nat.le_refl _
  · simp [hintern, size]

end NameTable

/-! ## Searching the table -/

/-- The name with the namespace before it. -/
def TypeEntry.fullName (entry : TypeEntry) : String :=
  if entry.space.isEmpty then entry.name else entry.space ++ "." ++ entry.name

/-- The type is known by the name with `arity` type parameters, if no other type took it. -/
def TypeEntry.answers (entry : TypeEntry) (name : String) (arity : Nat) : Bool :=
  match entry.kind with
  | .builtin => entry.name == name && 0 == arity
  | .declared body => (entry.fullName == name || entry.name == name) && body.arity == arity
  | _ => false

namespace TypeTable

variable {t t' : TypeTable}

/-- The first entry that passes a test. -/
def search (t : TypeTable) (p : TypeEntry → Bool) : Option TypeId :=
  (t.entries.findIdx? p).map TypeId.mk

/-- The first type that answers to a name. -/
def named? (t : TypeTable) (name : String) (arity : Nat) : Option TypeId :=
  t.search (·.answers name arity)

theorem search_add (t : TypeTable) (p : TypeEntry → Bool) (flags : TypeFlags) (name space : String)
    (kind : TypeKind) :
    (t.add flags name space kind).search p =
      (t.search p).or (if p ⟨t.next, flags, name, space, kind⟩ then some t.next else none) := by
  rw [search, add, Array.findIdx?_push, Option.map_or]
  congr 1
  split <;> rfl

theorem length_frames (t : TypeTable) : t.frames.length = t.size := by
  simp [frames, size]

theorem size_of_frames (h : t'.frames = t.frames) : t'.size = t.size := by
  rw [← length_frames, ← length_frames, h]

/-- A test that does not look at members finds the same after members were added. -/
theorem search_frames {p : TypeEntry → Bool} (hp : ∀ entry, p entry.frame = p entry)
    (h : t'.frames = t.frames) : t'.search p = t.search p := by
  have hsearch (t : TypeTable) : t.search p = (t.frames.findIdx? p).map TypeId.mk := by
    have hcomp : p ∘ TypeEntry.frame = p := funext hp
    rw [search, frames, List.findIdx?_map, hcomp, List.findIdx?_toArray]
  rw [hsearch, hsearch, h]

end TypeTable

/-- The test that finds what is asked for. -/
def TypeRequest.test : TypeRequest → TypeKind → Bool
  | generic definition args, .generic d as => d == definition && as == args
  | array element rank, .array e r => e == element && r == rank
  | _, _ => false

theorem TypeRequest.test_eq_true (q : TypeRequest) (kind : TypeKind) :
    q.test kind = true ↔ kind = q.kind := by
  cases q <;> cases kind <;> simp [test, TypeRequest.kind]

namespace TypeTable

variable {t t' : TypeTable}

/-- The type asked for, if the table holds it. -/
def find? (t : TypeTable) : TypeRequest → Option TypeId
  | .generic definition args => t.instance? definition args
  | .array element rank => t.array? element rank

theorem find?_eq_findKind? (t : TypeTable) (q : TypeRequest) : t.find? q = t.findKind? q.test := by
  cases q with
  | generic definition args =>
    rw [find?, instance?]
    refine congrArg (findKind? t) (funext fun kind => ?_)
    cases kind <;> rfl
  | array element rank =>
    rw [find?, array?]
    refine congrArg (findKind? t) (funext fun kind => ?_)
    cases kind <;> rfl

theorem find?_eq_search (t : TypeTable) (q : TypeRequest) : t.find? q = t.search (q.test ·.kind) :=
  t.find?_eq_findKind? q

theorem find?_frames (h : t'.frames = t.frames) (q : TypeRequest) : t'.find? q = t.find? q := by
  rw [find?_eq_search, find?_eq_search]
  refine search_frames (fun entry => Bool.eq_iff_iff.2 ?_) h
  rw [q.test_eq_true, q.test_eq_true]
  exact q.frame_eq_kind

theorem find?_add_other (t : TypeTable) {flags : TypeFlags} {name space : String} {kind : TypeKind}
    (hkind : kind.isMade = false) (q : TypeRequest) :
    (t.add flags name space kind).find? q = t.find? q := by
  rw [find?_eq_search, search_add, if_neg, Option.or_none, find?_eq_search]
  intro htest
  rw [(q.test_eq_true kind).1 htest, q.isMade_kind] at hkind
  cases hkind

theorem find?_add_made (t : TypeTable) {flags : TypeFlags} {name space : String} {q : TypeRequest}
    (hmissing : t.find? q = none) (q' : TypeRequest) :
    (t.add flags name space q.kind).find? q' = if q = q' then some t.next else t.find? q' := by
  rw [find?_eq_search, search_add, ← find?_eq_search]
  by_cases h : q = q'
  · subst h
    rw [if_pos ((q.test_eq_true q.kind).2 rfl), if_pos rfl, hmissing, Option.none_or]
  · rw [if_neg, if_neg h, Option.or_none]
    exact fun htest => h (TypeRequest.kind_injective ((q'.test_eq_true q.kind).1 htest))

end TypeTable

/-! ## Names of a registry -/

namespace Registry

variable {r r' : Registry}

/-- A search finds the one entry that there is. -/
theorem Coherent.find?_of_hasKind (h : r.Coherent) {q : TypeRequest} {id : TypeId}
    (hkind : r.table.HasKind id q.kind) : r.table.find? q = some id := by
  cases hfind : r.table.find? q with
  | some found =>
    rw [TypeTable.find?_eq_findKind?] at hfind
    obtain ⟨hfound, -⟩ := TypeTable.first_of_findKind? q.test_eq_true hfind
    rw [h.unique q found id hfound hkind]
  | none =>
    rw [TypeTable.find?_eq_findKind?] at hfind
    exact absurd hkind (TypeTable.not_hasKind_of_findKind? q.test_eq_true hfind id)

/-- A name leads to the first type that answers to it. -/
def Named (r : Registry) : Prop :=
  ∀ name arity, r.lookup name arity = r.table.named? name arity

theorem lookup_register (r : Registry) (name : String) (arity : Nat) (id : TypeId) (n : String)
    (a : Nat) :
    (r.register name arity id).lookup n a =
      (r.lookup n a).or (if name = n ∧ arity = a then some id else none) := by
  rw [lookup, register, List.find?_append, Option.map_or]
  congr 1
  by_cases h : name = n ∧ arity = a <;> simp [h]

end Registry

/-- The entry that a declaration adds to a table. -/
def ClassDecl.entry (d : ClassDecl) (id : TypeId) : TypeEntry :=
  ⟨id, d.flags, d.name, d.space, .declared d.body⟩

/-- A class that takes its dotted name, if it has one, and its simple name, where they are free,
answers to them. -/
theorem ClassDecl.or_answers (d : ClassDecl) (id : TypeId) (found : Option TypeId) (name : String)
    (arity : Nat) :
    (if d.space.isEmpty then found
      else found.or
        (if d.space ++ "." ++ d.name = name ∧ d.arity = arity then some id else none)).or
        (if d.name = name ∧ d.arity = arity then some id else none) =
      found.or (if (d.entry id).answers name arity then some id else none) := by
  have hanswers : (d.entry id).answers name arity = true ↔
      ((d.entry id).fullName = name ∨ d.name = name) ∧ d.arity = arity := by
    simp [entry, TypeEntry.answers, body]
  by_cases hspace : d.space.isEmpty
  · have hfull : (d.entry id).fullName = d.name := if_pos hspace
    simp only [hspace, if_true, hanswers, hfull, or_self]
  · have hfull : (d.entry id).fullName = d.space ++ "." ++ d.name := if_neg hspace
    simp only [hspace, hanswers, hfull, or_and_right]
    cases found <;> by_cases hdotted : d.space ++ "." ++ d.name = name ∧ d.arity = arity <;>
      simp [hdotted]

namespace Registry

variable {r r' : Registry}

theorem lookup_addClass (r : Registry) (d : ClassDecl) (name : String) (arity : Nat) :
    (r.addClass d).lookup name arity = (r.lookup name arity).or
      (if (d.entry r.table.next).answers name arity then some r.table.next else none) := by
  rw [← d.or_answers, addClass, lookup_register]
  split
  · rfl
  · rw [lookup_register]
    rfl

theorem Named.addType (h : r.Named) {flags : TypeFlags} {name space : String} {kind : TypeKind}
    (hkind : ∀ n a, TypeEntry.answers ⟨r.table.next, flags, name, space, kind⟩ n a = false) :
    (r.addType flags name space kind).Named := by
  intro n a
  rw [Registry.addType, TypeTable.named?, TypeTable.search_add, hkind]
  exact (h n a).trans (Option.or_none).symm

theorem Named.addClass (h : r.Named) (d : ClassDecl) : (r.addClass d).Named := by
  intro n a
  rw [lookup_addClass, addClass_table, TypeTable.named?, TypeTable.search_add, h n a]
  rfl

theorem Named.addBuiltin (h : r.Named) (name : String) (flags : TypeFlags) :
    (r.addBuiltin name flags).Named := by
  intro n a
  rw [Registry.addBuiltin, lookup_register]
  change (r.lookup n a).or _ = (r.table.add flags name "" .builtin).named? n a
  have hanswers : TypeEntry.answers ⟨r.table.next, flags, name, "", .builtin⟩ n a = true ↔
      name = n ∧ 0 = a := by
    simp [TypeEntry.answers]
  simp only [TypeTable.named?, TypeTable.search_add, h n a, hanswers]

theorem Named.filled (h : r.Named) (hframes : r'.table.frames = r.table.frames)
    (hnames : r'.names = r.names) : r'.Named := by
  intro n a
  have hanswers (entry : TypeEntry) : entry.frame.answers n a = entry.answers n a := by
    cases hkind : entry.kind <;>
      simp [TypeEntry.frame, TypeKind.frame, TypeEntry.answers, TypeEntry.fullName, hkind]
  rw [lookup, hnames, TypeTable.named?, TypeTable.search_frames hanswers hframes]
  exact h n a

theorem Changes.named (hr : r.Named) (h : r.Changes r') : r'.Named := by
  cases h with
  | filled frames names => exact hr.filled frames names
  | declared d => exact hr.addClass d
  | made q missing standard => exact hr.addType fun n a => by cases q <;> rfl

theorem Runs.named (hr : r.Named) (h : r.Runs r') : r'.Named := by
  induction h with
  | refl => exact hr
  | step op _ hrun ih => exact (changes_of_run hrun).named ih

end Registry

/-! ## Catalogs and registries -/

namespace Catalog

variable {c c' : Catalog} {r r' : Registry}

/-- `makeGeneric` or `makeArray`. -/
def make (c : Catalog) : TypeRequest → Except Dangling (TypeId × Catalog)
  | .generic definition args => c.makeGeneric definition args
  | .array element rank => .ok (c.makeArray element rank)

/-- The type filed for a request. -/
def filed? (c : Catalog) : TypeRequest → Option TypeId
  | .generic definition args => c.generics.get? (definition, args)
  | .array element rank => c.arrays.get? (element, rank)

/-- File a type for a request. -/
def file (c : Catalog) (id : TypeId) : TypeRequest → Catalog
  | .generic definition args => { c with generics := c.generics.insert (definition, args) id }
  | .array element rank => { c with arrays := c.arrays.insert (element, rank) id }

/-- There is a word for one more handle. -/
def Fits (c : Catalog) : Prop := c.size ≤ maxWord

/-- Nothing is filed under numbers that no name has. -/
def Numbered (c : Catalog) : Prop :=
  ∀ number arity, c.interned.size ≤ number → c.names.get? (number, arity) = none

/-- The catalog gives the answers of the registry. -/
structure Refines (c : Catalog) (r : Registry) : Prop where
  table : c.table = r.table
  root : c.root = r.root
  numbered : c.Numbered
  lookup : ∀ name arity, c.lookup name arity = r.lookup name arity
  filed : ∀ q, c.filed? q = r.table.find? q

theorem filed?_file (c : Catalog) (q q' : TypeRequest) (id : TypeId) :
    (c.file id q).filed? q' = if q = q' then some id else c.filed? q' := by
  cases q <;> cases q' <;> simp [file, filed?, Index.get?_insert]

theorem make_of_filed {q : TypeRequest} {id : TypeId} (h : c.filed? q = some id) :
    c.make q = .ok (id, c) := by
  cases q with
  | generic definition args =>
    have hfiled : c.generics.get? (definition, args) = some id := h
    rw [make, makeGeneric, hfiled]
  | array element rank =>
    have hfiled : c.arrays.get? (element, rank) = some id := h
    rw [make, makeArray, hfiled]

theorem lookup_file (c : Catalog) (q : TypeRequest) (id : TypeId) (name : String) (arity : Nat) :
    (c.file id q).lookup name arity = c.lookup name arity := by
  cases q <;> rfl

/-! ### Names -/

theorem lookup_register (hc : c.Numbered) (name : String) (arity : Nat) (id : TypeId) (n : String)
    (a : Nat) :
    (c.register name arity id).lookup n a =
      (c.lookup n a).or (if name = n ∧ arity = a then some id else none) := by
  simp only [lookup, register, NameTable.handle?_intern]
  by_cases hn : name = n
  · subst hn
    have hold : (c.interned.handle? name).bind (fun number => c.names.get? (number, a)) =
        c.names.get? ((c.interned.intern name).1, a) := by
      rcases c.interned.intern_cases name with ⟨number, hnumber, hintern⟩ | ⟨hnew, hintern⟩
      · rw [hnumber, hintern]
        rfl
      · rw [hnew, hintern]
        exact (hc _ a (Nat.le_refl _)).symm
    rw [if_pos rfl, Option.bind_some, Index.get?_insertNew, hold]
    simp
  · rw [if_neg hn]
    cases hnumber : c.interned.handle? n with
    | none => simp [hn]
    | some number =>
      -- a name that was there has another number
      have hother : (c.interned.intern name).1 ≠ number := by
        rintro rfl
        have hname : (c.interned.intern name).2.handle? name = some (c.interned.intern name).1 := by
          rw [NameTable.handle?_intern, if_pos rfl]
        have hn' : (c.interned.intern name).2.handle? n = some (c.interned.intern name).1 := by
          rw [NameTable.handle?_intern, if_neg hn, hnumber]
        exact hn (NameTable.handle?_injective hname hn')
      rw [Option.bind_some, Index.get?_insertNew]
      simp [hn, hother]

theorem Numbered.register (hc : c.Numbered) (name : String) (arity : Nat) (id : TypeId) :
    (c.register name arity id).Numbered := by
  intro number a hnumber
  have hintern : (c.interned.intern name).2.size ≤ number := hnumber
  have hlt := c.interned.intern_lt name
  have hle := c.interned.size_le_intern name
  have hother : ((c.interned.intern name).1, arity) ≠ (number, a) := by
    intro heq
    have hfst : (c.interned.intern name).1 = number := congrArg Prod.fst heq
    omega
  rw [Catalog.register]
  simp only [Index.get?_insertNew]
  rw [hc number a (by omega), if_neg hother, Option.none_or]

/-! ### Changes -/

theorem Refines.size (h : c.Refines r) : c.size = r.size := congrArg TypeTable.size h.table

theorem Refines.next (h : c.Refines r) (hfits : c.Fits) : c.next = r.table.next := by
  have hsize : c.size = r.table.entries.size := h.size
  rw [Catalog.next, Nat.mod_eq_of_lt (Nat.lt_succ_of_le hfits), hsize]
  rfl

theorem Refines.table_addType (h : c.Refines r) (hfits : c.Fits) (flags : TypeFlags)
    (name space : String) (kind : TypeKind) :
    (c.addType flags name space kind).table = (r.addType flags name space kind).table := by
  rw [Catalog.addType, h.next hfits, h.table]
  rfl

/-- A type that no request asks for. -/
theorem Refines.addType (h : c.Refines r) (hfits : c.Fits) {flags : TypeFlags}
    {name space : String} {kind : TypeKind} (hkind : kind.isMade = false) :
    (c.addType flags name space kind).Refines (r.addType flags name space kind) where
  table := h.table_addType hfits flags name space kind
  root := h.root
  numbered := h.numbered
  lookup := h.lookup
  filed q := (h.filed q).trans (r.table.find?_add_other hkind q).symm

/-- A type that is asked for and missing. -/
theorem Refines.addMade (h : c.Refines r) (hfits : c.Fits) {flags : TypeFlags}
    {name space : String} {q : TypeRequest} (hmissing : r.table.find? q = none) :
    ((c.addType flags name space q.kind).file c.next q).Refines
      (r.addType flags name space q.kind) where
  table := by
    rw [← h.table_addType hfits]
    cases q <;> rfl
  root := by
    rw [Registry.addType, ← h.root]
    cases q <;> rfl
  numbered := by
    cases q <;> exact h.numbered
  lookup n a := (lookup_file ..).trans (h.lookup n a)
  filed q' := by
    rw [filed?_file, h.next hfits, Registry.addType, r.table.find?_add_made hmissing]
    exact congrArg (ite _ _) (h.filed q')

theorem Refines.register (h : c.Refines r) (name : String) (arity : Nat) (id : TypeId) :
    (c.register name arity id).Refines (r.register name arity id) where
  table := h.table
  root := h.root
  numbered := h.numbered.register name arity id
  lookup n a := by
    rw [lookup_register h.numbered, Registry.lookup_register, h.lookup n a]
  filed := h.filed

theorem Refines.addBuiltin (h : c.Refines r) (hfits : c.Fits) (name : String) (flags : TypeFlags) :
    (c.addBuiltin name flags).Refines (r.addBuiltin name flags) := by
  rw [Catalog.addBuiltin, h.next hfits]
  exact (h.addType hfits rfl).register ..

theorem Refines.declare (h : c.Refines r) (hfits : c.Fits) (d : ClassDecl) :
    (c.declare d).1 = (r.declare d).1 ∧ (c.declare d).2.Refines (r.declare d).2 := by
  rw [Catalog.declare, h.next hfits]
  refine ⟨rfl, ?_⟩
  have hadded : (c.addType d.flags d.name d.space (.declared d.body)).Refines
      (r.addType d.flags d.name d.space (.declared d.body)) := h.addType hfits rfl
  rw [Registry.declare, Registry.addClass]
  dsimp only
  split
  · exact hadded.register ..
  · exact (hadded.register ..).register ..

/-- Both go through, with related outcomes, or both meet the same dangling handle. -/
inductive Matches {α β : Type} (rel : α → β → Prop) : Except Dangling α → Except Dangling β → Prop
  | ok {a : α} {b : β} (h : rel a b) : Matches rel (.ok a) (.ok b)
  | error (d : Dangling) : Matches rel (.error d) (.error d)

section

variable {α β γ δ : Type} {rel : α → β → Prop} {rel' : γ → δ → Prop} {x : Except Dangling α}
  {y : Except Dangling β}

theorem Matches.of_left (h : Matches rel x y) {a : α} (hx : x = .ok a) :
    ∃ b, y = .ok b ∧ rel a b := by
  cases h with
  | ok hab =>
    cases hx
    exact ⟨_, rfl, hab⟩
  | error d => cases hx

theorem Matches.of_right (h : Matches rel x y) {b : β} (hy : y = .ok b) :
    ∃ a, x = .ok a ∧ rel a b := by
  cases h with
  | ok hab =>
    cases hy
    exact ⟨_, rfl, hab⟩
  | error d => cases hy

theorem Matches.bind (h : Matches rel x y) {f : α → Except Dangling γ} {g : β → Except Dangling δ}
    (hfg : ∀ a b, y = .ok b → rel a b → Matches rel' (f a) (g b)) :
    Matches rel' (x >>= f) (y >>= g) := by
  cases h with
  | ok hab => exact hfg _ _ rfl hab
  | error d => exact .error d

end

theorem Refines.addMembers (h : c.Refines r) (id : TypeId) (members : List Member) :
    Matches Refines (c.addMembers id members) (r.addMembers id members) := by
  rw [Catalog.addMembers, h.table, Registry.addMembers]
  cases htable : r.table.addMembers id members with
  | error d => exact .error d
  | ok table =>
    have hadd : r.addMembers id members = .ok { r with table } :=
      bind_eq_ok.2 ⟨table, htable, rfl⟩
    refine .ok ⟨rfl, h.root, h.numbered, h.lookup, fun q => (h.filed q).trans ?_⟩
    exact (TypeTable.find?_frames (Registry.frames_addMembers hadd) q).symm

theorem Refines.makeGeneric (h : c.Refines r) (hfits : c.Fits) (definition : TypeId)
    (args : List TypeId) :
    Matches (fun a b => a.1 = b.1 ∧ a.2.Refines b.2) (c.makeGeneric definition args)
      (r.makeGeneric definition args) := by
  have hfiled : c.generics.get? (definition, args) = r.table.instance? definition args :=
    h.filed (.generic definition args)
  rw [Catalog.makeGeneric, Registry.makeGeneric, hfiled, h.table]
  cases hfind : r.table.instance? definition args with
  | some id => exact .ok ⟨rfl, h⟩
  | none =>
    cases hget : r.table.get definition with
    | error d => exact .error d
    | ok entry =>
      exact .ok ⟨h.next hfits, h.addMade hfits (q := .generic definition args) hfind⟩

theorem Refines.makeArray (h : c.Refines r) (hfits : c.Fits) (element : TypeId) (rank : Nat) :
    (c.makeArray element rank).1 = (r.makeArray element rank).1 ∧
      (c.makeArray element rank).2.Refines (r.makeArray element rank).2 := by
  have hfiled : c.arrays.get? (element, rank) = r.table.array? element rank :=
    h.filed (.array element rank)
  rw [Catalog.makeArray, Registry.makeArray, hfiled]
  cases hfind : r.table.array? element rank with
  | some id => exact ⟨rfl, h⟩
  | none => exact ⟨h.next hfits, h.addMade hfits (q := .array element rank) hfind⟩

theorem Refines.make (h : c.Refines r) (hfits : c.Fits) (q : TypeRequest) :
    Matches (fun a b => a.1 = b.1 ∧ a.2.Refines b.2) (c.make q) (r.make q) := by
  cases q with
  | generic definition args => exact h.makeGeneric hfits definition args
  | array element rank => exact .ok (h.makeArray hfits element rank)

/-- A change does the same to a catalog and to the registry that it stands for. -/
theorem Refines.run (h : c.Refines r) (hfits : c.Fits) (op : RegistryOp) :
    Matches Refines (c.run op) (op.run r) := by
  cases op with
  | declare d => exact .ok (h.declare hfits d).2
  | addMembers id members => exact h.addMembers id members
  | makeGeneric definition args =>
    exact (h.makeGeneric hfits definition args).bind fun _ _ _ hmade => .ok hmade.2
  | makeArray element rank => exact .ok (h.makeArray hfits element rank).2

/-! ## The first catalog -/

end Catalog

/-- The registry after a step on the way to the first one. -/
def Registry.boot (r : Registry) : BootStep → Except Dangling Registry
  | .builtin name flags => .ok (r.addBuiltin name flags)
  | .parameter name index => .ok (r.addType .typeParameter name "" (.parameter index))
  | .change op => op.run r

/-- Members may be added before the next type or after it. -/
theorem TypeTable.addMembers_add {t t' : TypeTable} {id : TypeId} {members : List Member}
    (h : t.addMembers id members = .ok t') (flags : TypeFlags) (name space : String)
    (kind : TypeKind) :
    (t.add flags name space kind).addMembers id members = .ok (t'.add flags name space kind) := by
  obtain ⟨entry, hget, h⟩ := bind_eq_ok.1 h
  refine bind_eq_ok.2 ⟨entry, get_mono (extends_add ..) hget, ?_⟩
  cases hkind : entry.kind with
  | declared body =>
    rw [hkind] at h
    cases h
    obtain ⟨hlt, -⟩ := Array.getElem?_eq_some_iff.1 (get_eq_ok.1 hget)
    refine congrArg Except.ok (congrArg TypeTable.mk (Array.toList_inj.1 ?_))
    simp [add, next, List.set_append_left, hlt]
  | _ =>
    rw [hkind] at h
    cases h
    rfl

namespace Registry

variable {r r' : Registry}

section

variable {id : TypeId} {members : List Member}

theorem addMembers_addType (h : r.addMembers id members = .ok r') (flags : TypeFlags)
    (name space : String) (kind : TypeKind) :
    (r.addType flags name space kind).addMembers id members =
      .ok (r'.addType flags name space kind) := by
  obtain ⟨table, htable, h⟩ := bind_eq_ok.1 h
  cases h
  exact bind_eq_ok.2 ⟨_, TypeTable.addMembers_add htable flags name space kind, rfl⟩

theorem addMembers_register (h : r.addMembers id members = .ok r') (name : String) (arity : Nat)
    (type : TypeId) :
    (r.register name arity type).addMembers id members = .ok (r'.register name arity type) := by
  obtain ⟨table, htable, h⟩ := bind_eq_ok.1 h
  cases h
  exact bind_eq_ok.2 ⟨_, htable, rfl⟩

theorem next_addMembers (h : r.addMembers id members = .ok r') : r'.table.next = r.table.next :=
  congrArg TypeId.mk (TypeTable.size_of_frames (frames_addMembers h))

theorem addMembers_addBuiltin (h : r.addMembers id members = .ok r') (name : String)
    (flags : TypeFlags) :
    (r.addBuiltin name flags).addMembers id members = .ok (r'.addBuiltin name flags) := by
  rw [addBuiltin, addBuiltin, next_addMembers h]
  exact addMembers_register (addMembers_addType h ..) ..

theorem addMembers_addClass (h : r.addMembers id members = .ok r') (d : ClassDecl) :
    (r.addClass d).addMembers id members = .ok (r'.addClass d) := by
  unfold addClass
  rw [next_addMembers h]
  refine addMembers_register ?_ ..
  split
  · exact addMembers_addType h ..
  · exact addMembers_register (addMembers_addType h ..) ..

end

/-- Members of the class that was declared last. -/
theorem addMembers_declared (r : Registry) (d : ClassDecl) (members : List Member) :
    (r.addClass d).addMembers r.table.next members =
      .ok (r.addClass { d with members := d.members ++ members }) := by
  have htable : (r.addClass d).table.addMembers r.table.next members =
      .ok (r.addClass { d with members := d.members ++ members }).table := by
    rw [addClass_table, addClass_table, TypeTable.addMembers, TypeTable.get_next]
    refine congrArg Except.ok (congrArg TypeTable.mk (Array.toList_inj.1 ?_))
    simp [TypeTable.add, TypeTable.next, ClassDecl.body, List.set_append_right]
  rw [addMembers, htable]
  unfold addClass
  dsimp only
  split <;> rfl

theorem size_addClass (r : Registry) (d : ClassDecl) : (r.addClass d).size = r.size + 1 := by
  rw [size, addClass_table]
  exact Array.size_push ..

theorem foldlM_hostSteps (root : String) :
    hostSteps.foldlM boot (empty root) = .ok (empty root).hostTypes := by
  -- `Object` and `String` get their members only when all of these are declared
  let others (r : Registry) : Registry := r
    |>.addBuiltin "Boolean" .primitive
    |>.addBuiltin "int" .primitive
    |>.addBuiltin "uint" .primitive
    |>.addBuiltin "Number" .primitive
    |>.addBuiltin "void" .void
    |>.addBuiltin "null" .null
  have hothers {r r' : Registry} {id : TypeId} {members : List Member}
      (h : r.addMembers id members = .ok r') :
      (others r).addMembers id members = .ok (others r') := by
    iterate 6 refine addMembers_addBuiltin ?_ ..
    exact h
  let any := (empty root).addBuiltin "*" .dynamic
  let object : ClassDecl := .ofClass "Object"
  let string : ClassDecl := (ClassDecl.ofClass "String").withFlags .primitive
  let toStringMethod : Member := .method "toString" [] .string
  let lengthField : Member := .field "length" .int
  let filled := any.addClass (object.withMember toStringMethod)
  have hbare : (hostSteps.take 9).foldlM boot (empty root) =
      .ok (others ((any.addClass object).addClass string)) := rfl
  have hobject : (others ((any.addClass object).addClass string)).addMembers .object
      [toStringMethod] = .ok (others (filled.addClass string)) :=
    hothers (addMembers_addClass (addMembers_declared any object [toStringMethod]) string)
  have hstring : (others (filled.addClass string)).addMembers .string [lengthField] =
      .ok (empty root).hostTypes :=
    hothers (addMembers_declared filled string [lengthField])
  rw [← List.take_append_drop 9 hostSteps, List.foldlM_append]
  exact bind_eq_ok.2 ⟨_, hbare, bind_eq_ok.2 ⟨_, hobject, bind_eq_ok.2 ⟨_, hstring, rfl⟩⟩⟩

/-- The steps lead to the first registry. -/
theorem foldlM_bootSteps (root : String) :
    (bootSteps root).foldlM boot (empty root) = .ok (bootstrap root) := by
  have join {steps steps' : List BootStep} {r₁ r₂ r₃ : Registry} (h : steps.foldlM boot r₁ = .ok r₂)
      (h' : steps'.foldlM boot r₂ = .ok r₃) : (steps ++ steps').foldlM boot r₁ = .ok r₃ := by
    rw [List.foldlM_append, h]
    exact h'
  let before (root : String) : Registry :=
    (empty root).hostTypes.typeParameters.runtimeInterfaces.runtimeSequences
  have htable : (before root).table = (before "").table := rfl
  have hruntime : runtimeSteps.foldlM boot (empty root).hostTypes = .ok (before root) := rfl
  have hexpando : expandoSteps.foldlM boot (before root) =
      .ok ((before root).stringDictionary.addClass .expando) := by
    have hmissing : (before "").table.instance? .dictionaryGeneric [.string, .object] = none := by
      decide +kernel
    rw [expandoSteps, List.foldlM_cons, boot, RegistryOp.run, makeGeneric, htable, hmissing]
    rfl
  have hliteral (r : Registry) (hr : r.size = 18) : literalSteps.foldlM boot r =
      .ok (((r.addClass .regexp).addClass .xml).addClass
        (ClassDecl.undefined.withMember (.staticField undefinedField .undefined))) := by
    have hnext : ((r.addClass .regexp).addClass .xml).table.next = .undefined :=
      congrArg TypeId.mk (by rw [← TypeTable.size, ← size, size_addClass, size_addClass, hr])
    have hfield := addMembers_declared ((r.addClass .regexp).addClass .xml) .undefined
      [.staticField undefinedField .undefined]
    rw [hnext] at hfield
    exact bind_eq_ok.2 ⟨_, rfl, bind_eq_ok.2 ⟨_, rfl, bind_eq_ok.2 ⟨_, rfl,
      bind_eq_ok.2 ⟨_, hfield, rfl⟩⟩⟩⟩
  have hsize : ((before root).stringDictionary.addClass .expando).size = 18 := by
    have hbefore : (before "").size = 16 := by decide +kernel
    rw [size_addClass, stringDictionary, size_addType, size, htable, ← size, hbefore]
  exact join (join (join (join (foldlM_hostSteps root) hruntime) hexpando) (hliteral _ hsize)) rfl

theorem Changes.size_le (h : r.Changes r') : r'.size ≤ r.size + 1 := by
  cases h with
  | filled frames names => exact Nat.le_succ_of_le (Nat.le_of_eq (TypeTable.size_of_frames frames))
  | declared d => exact Nat.le_of_eq (size_addClass r d)
  | made q missing standard => exact Nat.le_of_eq (size_addType ..)

theorem size_boot_le {step : BootStep} (h : r.boot step = .ok r') : r'.size ≤ r.size + 1 := by
  cases step with
  | builtin | parameter =>
    cases h
    exact Nat.le_of_eq (size_addType ..)
  | change op => exact (changes_of_run h).size_le

theorem Named.boot (hr : r.Named) {step : BootStep} (h : r.boot step = .ok r') : r'.Named := by
  cases step with
  | builtin name flags =>
    cases h
    exact hr.addBuiltin name flags
  | parameter name index =>
    cases h
    exact hr.addType fun n a => rfl
  | change op => exact (changes_of_run h).named hr

theorem Named.foldlM_boot {steps : List BootStep} :
    ∀ {r : Registry}, r.Named → steps.foldlM Registry.boot r = .ok r' → r'.Named := by
  induction steps with
  | nil =>
    intro r hr h
    cases h
    exact hr
  | cons step steps ih =>
    intro r hr h
    rw [List.foldlM_cons] at h
    obtain ⟨next, hnext, h⟩ := bind_eq_ok.1 h
    exact ih (hr.boot hnext) h

theorem bootstrap_named (root : String) : (bootstrap root).Named := by
  have hempty : (empty root).Named := fun name arity => by
    simp [lookup, empty, TypeTable.named?, TypeTable.search, TypeTable.empty]
  exact hempty.foldlM_boot (foldlM_bootSteps root)

end Registry

namespace Catalog

variable {c c' : Catalog} {r r' : Registry}

theorem refines_empty (root : String) : (empty root).Refines (Registry.empty root) where
  table := rfl
  root := rfl
  numbered _ _ _ := rfl
  lookup name arity := by
    simp [lookup, empty, NameTable.empty, NameTable.handle?, Registry.lookup, Registry.empty]
  filed q := by
    rw [TypeTable.find?_eq_search]
    cases q <;> simp [filed?, empty, Index.empty, Index.get?, TypeTable.search, Registry.empty,
      TypeTable.empty]

theorem Refines.boot (h : c.Refines r) (hfits : c.Fits) (step : BootStep) :
    Matches Refines (c.boot step) (r.boot step) := by
  cases step with
  | builtin name flags => exact .ok (h.addBuiltin hfits name flags)
  | parameter name index => exact .ok (h.addType hfits rfl)
  | change op => exact h.run hfits op

theorem Refines.foldlM_boot {steps : List BootStep} :
    ∀ {c : Catalog} {r : Registry}, c.Refines r → c.size + steps.length ≤ maxWord →
      Matches Refines (steps.foldlM Catalog.boot c) (steps.foldlM Registry.boot r) := by
  induction steps with
  | nil => exact fun h _ => .ok h
  | cons step steps ih =>
    intro c r h hsize
    rw [List.length_cons] at hsize
    have hfits : c.size ≤ maxWord := by omega
    rw [List.foldlM_cons, List.foldlM_cons]
    refine (h.boot hfits step).bind fun c' r' hr' hnext => ih hnext ?_
    have hle := Registry.size_boot_le hr'
    rw [← hnext.size, ← h.size] at hle
    omega

/-- The first catalog is there, and it stands for the first registry. -/
theorem refines_bootstrap (root : String) :
    ∃ start, bootstrap root = .ok start ∧ start.Refines (Registry.bootstrap root) := by
  have hlength : (empty root).size + (bootSteps root).length = 25 := rfl
  have hroom : (empty root).size + (bootSteps root).length ≤ maxWord := by
    rw [hlength]
    decide
  exact ((refines_empty root).foldlM_boot hroom).of_right (Registry.foldlM_bootSteps root)

/-! ## Whole runs -/

/-- The catalogs that any changes make of `c`, each of which goes through and finds room for one
more type. -/
inductive Runs (c : Catalog) : Catalog → Prop
  | refl : Runs c c
  | step {c' c'' : Catalog} (op : RegistryOp) : Runs c c' → c'.Fits → c'.run op = .ok c'' →
      Runs c c''

/-- A run of a catalog is one of the registry that it stands for. -/
theorem Refines.follow (h : c.Refines r) (hruns : c.Runs c') : ∃ r', r.Runs r' ∧ c'.Refines r' := by
  induction hruns with
  | refl => exact ⟨r, .refl, h⟩
  | @step c' c'' op _ hfits hrun ih =>
    obtain ⟨r', hr', h'⟩ := ih
    obtain ⟨r'', hr'', h''⟩ := (h'.run hfits op).of_left hrun
    exact ⟨r'', .step op hr' hr'', h''⟩

/-- A run of a registry is one of every catalog that stands for it, if there are words for the
handles. -/
theorem Refines.lead (h : c.Refines r) (hruns : r.Runs r') (hsize : r'.size ≤ maxWord) :
    ∃ c', c.Runs c' ∧ c'.Refines r' := by
  induction hruns with
  | refl => exact ⟨c, .refl, h⟩
  | @step r' r'' op _ hrun ih =>
    have hlength := (Registry.changes_of_run hrun).frames.length_le
    rw [TypeTable.length_frames, TypeTable.length_frames] at hlength
    have hroom : r'.size ≤ maxWord := Nat.le_trans hlength hsize
    obtain ⟨c', hc', h'⟩ := ih hroom
    have hfits : c'.Fits := Nat.le_trans (Nat.le_of_eq h'.size) hroom
    obtain ⟨c'', hc'', h''⟩ := (h'.run hfits op).of_right hrun
    exact ⟨c'', .step op hc' hfits hc'', h''⟩

/-- The first catalog is there, and a run of it stands for every run of the first registry that
needs no more handles than there are words. In every catalog that a run reaches from it with room
for one more type :

* the indexes and the table agree : what is filed for a definition with arguments, for an element
  with a rank, or for a name with a number of type parameters, is what a search of the table finds
  first, and nothing is filed where it finds nothing;
* the catalog gives the answers of a registry that a run makes of the first one;
* each entry has its position for a handle, and a later catalog of the run begins with the same
  entries, but for members;
* an instance or an array can be made if its definition is there; its entry is of the kind asked
  for, and it is the only one; at any later time the same request gives the same handle and
  changes nothing, and a request that gives this handle is the same;
* an instance has the name and the namespace of its definition, and its flags as an instance;
* a name that was given stays with its type, and only a declaration gives names. -/
theorem table_invariant_of_runs (root : String) :
    ∃ start, bootstrap root = .ok start ∧
      (∀ r, (Registry.bootstrap root).Runs r → r.size ≤ maxWord →
        ∃ c, start.Runs c ∧ c.Refines r) ∧
      ∀ c, start.Runs c → c.Fits →
      ((∀ definition args,
          c.generics.get? (definition, args) = c.table.instance? definition args) ∧
        (∀ element rank, c.arrays.get? (element, rank) = c.table.array? element rank) ∧
        ∀ name arity, c.lookup name arity = c.table.named? name arity) ∧
      (∃ r, (Registry.bootstrap root).Runs r ∧ c.Refines r) ∧
      (∀ id entry, c.table.get id = .ok entry → entry.id = id) ∧
      (∀ c', c.Runs c' → c.table.frames <+: c'.table.frames) ∧
      (∀ q : TypeRequest, (∃ made, c.make q = .ok made) ↔ q.Known c.table) ∧
      (∀ (q : TypeRequest) i j, c.table.HasKind i q.kind → c.table.HasKind j q.kind → i = j) ∧
      (∀ (q : TypeRequest) i made, c.make q = .ok (i, made) → made.table.HasKind i q.kind ∧
        ∀ c', made.Runs c' → c'.Fits → c'.make q = .ok (i, c') ∧
          ∀ (q' : TypeRequest) j c'', c'.make q' = .ok (j, c'') → (i = j ↔ q = q')) ∧
      (∀ id entry definition args, c.table.get id = .ok entry →
        entry.kind = .generic definition args → ∃ generic, c.table.get definition = .ok generic ∧
          entry.name = generic.name ∧ entry.space = generic.space ∧
          entry.flags = generic.flags.diff .genericDefinition ∪ .genericInstance) ∧
      (∀ name arity id c', c.lookup name arity = some id → c.Runs c' →
        c'.lookup name arity = some id) ∧
      (∀ op c', (∀ d, op ≠ RegistryOp.declare d) → c.run op = .ok c' →
        ∀ name arity, c'.lookup name arity = c.lookup name arity) := by
  obtain ⟨start, hstart, hfirst⟩ := refines_bootstrap root
  refine ⟨start, hstart, fun r hr hsize => hfirst.lead hr hsize, fun c hc hfits => ?_⟩
  obtain ⟨r, hr, h⟩ := hfirst.follow hc
  have hcoherent : r.Coherent := hr.coherent (Registry.bootstrap_coherent root)
  have hnamed : r.Named := hr.named (Registry.bootstrap_named root)
  rw [h.table]
  refine ⟨⟨fun definition args => h.filed (.generic definition args),
    fun element rank => h.filed (.array element rank),
    fun name arity => (h.lookup name arity).trans (hnamed name arity)⟩, ⟨r, hr, h⟩,
    hcoherent.own, fun c' hc' => ?_, fun q => ?_, hcoherent.unique, fun q i made hmade => ?_,
    fun id entry definition args hget hkind => ?_, fun name arity id c' hl hc' => ?_,
    fun op c' hop hrun name arity => ?_⟩
  · obtain ⟨r', hr', h'⟩ := h.follow hc'
    rw [h'.table]
    exact hr'.frames
  · rw [← hcoherent.known_iff q]
    constructor
    · rintro ⟨made, hmade⟩
      obtain ⟨made', hmade', -⟩ := (h.make hfits q).of_left hmade
      exact ⟨made', hmade'⟩
    · rintro ⟨made, hmade⟩
      obtain ⟨made', hmade', -⟩ := (h.make hfits q).of_right hmade
      exact ⟨made', hmade'⟩
  · obtain ⟨⟨-, made'⟩, hmade', rfl, h'⟩ := (h.make hfits q).of_left hmade
    have hkind : made'.table.HasKind i q.kind := Registry.hasKind_make hmade'
    refine ⟨h'.table ▸ hkind, fun c' hc' hfits' => ?_⟩
    obtain ⟨r', hr', h''⟩ := h'.follow hc'
    have hcoherent' : r'.Coherent :=
      hr'.coherent ((Registry.changes_of_make hmade').coherent hcoherent)
    have hlater : r'.table.HasKind i q.kind := Registry.hasKind_of_frames hr'.frames hkind
    have hfiled : c'.filed? q = some i :=
      (h''.filed q).trans (hcoherent'.find?_of_hasKind hlater)
    refine ⟨make_of_filed hfiled, fun q' j c'' hj => ?_⟩
    obtain ⟨⟨-, r''⟩, hj', rfl, -⟩ := (h''.make hfits' q').of_left hj
    exact (hcoherent.make_later hmade' hr').2 q' j r'' hj'
  · have hs := hcoherent.standard (.generic definition args) id entry hget hkind
    rw [hkind] at hs
    obtain ⟨generic, hgeneric, hflags, hname, hspace⟩ := hs
    exact ⟨generic, hgeneric, hname, hspace, hflags⟩
  · obtain ⟨r', hr', h'⟩ := h.follow hc'
    rw [h'.lookup]
    exact Registry.lookup_of_names hr'.names (h.lookup name arity ▸ hl)
  · obtain ⟨r', hr', h'⟩ := (h.run hfits op).of_left hrun
    rw [h'.lookup, h.lookup, Registry.lookup, Registry.lookup, Registry.names_of_run hop hr']

/-- A class of the user's that is called `Vector` too takes neither the name nor the instances of
the one that was there. -/
theorem vector_survives_namesake :
    ∃ start c c', bootstrap "app" = .ok start ∧ start.Runs c ∧ c.Runs c' ∧ c'.size = 24 ∧
      c'.make (.generic .vector [.int]) = .ok (⟨22⟩, c') ∧
      c'.lookup "Vector" 1 = some .vector := by
  let namesake : ClassDecl := (ClassDecl.ofClass "Vector").generic 1
  obtain ⟨start, hstart, -, invariant⟩ := table_invariant_of_runs "app"
  have hrun : (do
      let start ← (bootstrap "app").toOption
      let made ← (start.makeGeneric .vector [.int]).toOption
      return (start.size, made.1, made.2.size, made.2.lookup "Vector" 1,
        (made.2.declare namesake).2.size)) = some (22, ⟨22⟩, 23, some .vector, 24) := by
    decide +kernel
  rw [hstart] at hrun
  cases hmade : start.makeGeneric .vector [.int] with
  | error d => simp [Except.toOption, hmade] at hrun
  | ok made =>
    obtain ⟨i, c⟩ := made
    simp [Except.toOption, hmade] at hrun
    obtain ⟨hstartSize, rfl, hsize, hname, hsize'⟩ := hrun
    have hstartFits : start.Fits := by rw [Fits, hstartSize]; decide
    have hfits : c.Fits := by rw [Fits, hsize]; decide
    have hfits' : (c.declare namesake).2.Fits := by rw [Fits, hsize']; decide
    have hc : start.Runs c := .step (.makeGeneric .vector [.int]) .refl hstartFits
      (bind_eq_ok.2 ⟨_, hmade, rfl⟩)
    have hc' : c.Runs (c.declare namesake).2 := .step (.declare namesake) .refl hfits rfl
    obtain ⟨-, -, -, -, -, -, hrequests, -⟩ := invariant start .refl hstartFits
    obtain ⟨-, -, -, -, -, -, -, -, hnames, -⟩ := invariant c hc hfits
    obtain ⟨-, hlater⟩ := hrequests (.generic .vector [.int]) _ c hmade
    exact ⟨start, c, _, hstart, hc, hc', hsize', (hlater _ hc' hfits').1, hnames _ _ _ _ hname hc'⟩

end Catalog

end Dynascript
