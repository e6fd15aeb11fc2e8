import Dynascript.Proofs.Emit.Handles
import Dynascript.Proofs.Types.Ancestry

/-!
# Asking a dictionary for a key

`key in container` calls a method of the container. Which one is decided by one search, for the
plain dictionary interface among the types above the container's type; the method is then looked
for by another one, among the same types. The two do not agree on every type : the plain interface
declares `Contains`, and `ContainsKey`, which is called, comes with the generic one.

The first registry has no `ContainsKey` but instance methods, and making instances and arrays adds
none (`Makes.onlyMethods`). So if the user's classes have no other either, all that the second
search can find is a method to call (`OnlyMethods.hasMethod`), and `in` fails on a dictionary if and
only if the search finds nothing (`in_dictionary_iff`).
-/

namespace Dynascript

/-- A method that is called on an object. -/
def Member.isInstanceMethod (m : Member) : Bool :=
  match m.kind with
  | .method .. => !m.isStatic
  | .field .. | .indexer .. => false

theorem Member.exists_of_isInstanceMethod {m : Member} (h : m.isInstanceMethod = true) :
    m.isStatic = false ∧ ∃ parameters result, m.kind = .method parameters result := by
  obtain ⟨name, kind, isStatic⟩ := m
  cases kind with
  | method parameters result => exact ⟨by simpa [isInstanceMethod] using h, parameters, result, rfl⟩
  | field | indexer => cases h

/-- Putting in arguments makes no other sort of member. -/
theorem TypeTable.instantiate_isInstanceMethod {t : TypeTable} {args : List TypeId}
    {m m' : Member} (h : t.instantiate args m = .ok m') :
    m'.isInstanceMethod = m.isInstanceMethod := by
  obtain ⟨name, kind, isStatic⟩ := m
  cases kind with
  | field type =>
    obtain ⟨type, -, h⟩ := bind_eq_ok.1 h
    cases h
    rfl
  | method parameters result | indexer key value =>
    obtain ⟨_, -, h⟩ := bind_eq_ok.1 h
    obtain ⟨_, -, h⟩ := bind_eq_ok.1 h
    cases h
    rfl

namespace Registry

variable {r R : Registry} {ty owner : TypeId} {m : Member} {name : String}

/-- No class declares anything but instance methods under the name. -/
def OnlyMethods (r : Registry) (name : String) : Prop :=
  ∀ c entry, r.table.get c = .ok entry →
    ∀ m ∈ entry.kind.members, m.name = name → m.isInstanceMethod = true

theorem OnlyMethods.hasMethod (h : r.OnlyMethods name)
    (hf : r.findMember ty name = .ok (some (owner, m))) :
    ∃ result, r.HasMethod ty name false owner result := by
  have hm : m.isInstanceMethod = true := by
    refine findMemberWithin_induct (p := (·.isInstanceMethod = true)) ?_ ?_ hf
    · intro c entry m _ hget hown
      exact h c entry hget m (List.mem_of_find?_eq_some hown) (by simpa using List.find?_some hown)
    · intro c definition args m m' _ _ hm hinstance
      rwa [TypeTable.instantiate_isInstanceMethod hinstance]
  obtain ⟨hstatic, parameters, result, hkind⟩ := Member.exists_of_isInstanceMethod hm
  exact ⟨result, hstatic ▸ hasMethod_of_find hf hkind⟩

/-- Instances and arrays declare nothing. -/
theorem Makes.onlyMethods (hmakes : R.Makes r) (h : R.OnlyMethods name) : r.OnlyMethods name := by
  intro c entry hget
  by_cases hc : R.Has c
  · exact h c entry (hmakes.grows.get_of_has hc hget)
  · have hmade := hmakes.standard hc hget
    cases hkind : entry.kind with
    | declared body => simp [hkind, Standard] at hmade
    | builtin | array | generic | parameter => simp [TypeKind.members]

theorem runtime_onlyMethods : ∀ i, (h : i < runtime.table.entries.size) →
    ∀ m ∈ runtime.table.entries[i].kind.members,
      m.name = "ContainsKey" → m.isInstanceMethod = true := by
  decide

theorem bootstrap_onlyMethods (root : String) : (bootstrap root).OnlyMethods "ContainsKey" := by
  intro c entry hget
  rw [bootstrap_eq] at hget
  rcases get_addClass hget with hold | ⟨rfl, rfl⟩
  · obtain ⟨hlt, rfl⟩ := Array.getElem?_eq_some_iff.1 (TypeTable.get_eq_ok.1 hold)
    exact runtime_onlyMethods c.index hlt
  · have hhelper : typeofMethod ≠ "ContainsKey" := by decide
    intro m hm hname
    obtain rfl := List.mem_singleton.1 hm
    exact absurd hname hhelper

/-- The types of the first registry stay as they are, so what is asked is asked of the others. -/
theorem Built.onlyMethods {root : String} (h : Built root RegistryOp.SparesBootstrap R)
    (hothers : ∀ c entry, R.table.get c = .ok entry → TypeId.typeofHelper.index < c.index →
      ∀ m ∈ entry.kind.members, m.name = "ContainsKey" → m.isInstanceMethod = true) :
    R.OnlyMethods "ContainsKey" := by
  intro c entry hget
  by_cases hc : TypeId.typeofHelper.index < c.index
  · exact hothers c entry hget hc
  · have hsize := size_bootstrap root
    have hfirst : (bootstrap root).Has c := by
      unfold Has size
      omega
    obtain ⟨entry', hget'⟩ := hfirst.get
    cases hget.symm.trans (TypeTable.get_mono h.extends_bootstrap hget')
    exact bootstrap_onlyMethods root c entry hget'

/-- Some type above declares the method that a dictionary is asked by. -/
def Keyed (r : Registry) (ty : TypeId) : Prop := ∃ c, r.Reaches ty c ∧ r.Declares c "ContainsKey"

/-- The generic dictionary interface declares it. -/
theorem keyed_of_dictionaryGeneric {root : String}
    (h : Built root RegistryOp.SparesBootstrap R) (hmakes : R.Makes r)
    (hreaches : r.Reaches ty .dictionaryGeneric) : r.Keyed ty := by
  have hextends : (runtimeTable "").Extends r.table :=
    ((runtimeTable_extends root).trans h.extends_bootstrap).trans hmakes.grows.table
  obtain ⟨entry, hget, hdeclares⟩ : ∃ entry, (runtimeTable "").get .dictionaryGeneric = .ok entry ∧
      ∃ m ∈ entry.kind.members, m.name = "ContainsKey" :=
    ⟨_, rfl, .method "ContainsKey" [.param0] .boolean, by decide, rfl⟩
  exact ⟨_, hreaches, (declares_iff (TypeTable.get_mono hextends hget)).2 hdeclares⟩

end Registry

namespace Resolve

variable {cx : Context} {r : Registry} {loc : Location} {owner : TypeId} {name : String}
  {receiver : TypedExpr} {args : List TypedExpr}

theorem instanceCall_of_hasMethod {declaring result : TypeId}
    (h : r.HasMethod owner name false declaring result) :
    instanceCall loc receiver owner name args cx r =
      .ok ⟨some (.instanceCall (callInfo loc result) receiver declaring name args), [], r⟩ := by
  obtain ⟨parameters, hf⟩ := h
  simp only [instanceCall, findMethod, bind_run, ask, hf, if_true]
  rfl

theorem instanceCall_missing (hf : r.findMember owner name = .ok none)
    (hname : r.nameOf owner = .ok (r.typeName owner)) :
    instanceCall loc receiver owner name args cx r =
      .ok ⟨none, [.ofMessage .noSuchMember loc [r.typeName owner, name]], r⟩ := by
  simp only [instanceCall, findMethod, failNoMember, typeName, bind_run, ask, hf, hname]
  rfl

/-- A dictionary that is not dynamic is asked by its own `ContainsKey`. -/
theorem inOf_dictionary {key container : TypedExpr} (hnative : cx.settings.isScript = false)
    (hstatic : r.isDynamic container.type = .ok false)
    (hdictionary : r.implements container.type .dictionary = .ok true) :
    inOf loc key container cx r =
      instanceCall loc container container.type "ContainsKey" [key] cx r := by
  simp only [inOf, isScript, context, bind_run, ask, pure, Resolve.pure, hnative, hstatic,
    hdictionary, Bool.false_eq_true, if_false, if_true]
  cases instanceCall loc container container.type "ContainsKey" [key] cx r <;> rfl

/-- `in` on a dictionary. Let members be added to no type of the first registry, and let the user's
classes declare nothing but instance methods as `ContainsKey`. Then a container whose type
implements the plain dictionary interface, and is not dynamic, is asked by a call of `ContainsKey`
if and only if a type above its type declares that, as the generic dictionary interface does. On
any other such container `in` fails, and files that the method is missing. -/
theorem in_dictionary_iff {root : String} {R r₁ r₂ : Registry}
    (hR : R.Built root RegistryOp.SparesBootstrap)
    (hothers : ∀ c entry, R.table.get c = .ok entry → TypeId.typeofHelper.index < c.index →
      ∀ m ∈ entry.kind.members, m.name = "ContainsKey" → m.isInstanceMethod = true)
    (hnative : cx.settings.isScript = false) (hscopes : ∀ t ∈ cx.scopes.types, R.Has t)
    {key container : Expr} {k c : TypedExpr} {filed₁ filed₂ : Log}
    (hkey : resolve .unknown key cx R = .ok ⟨some k, filed₁, r₁⟩)
    (hcontainer : resolve .unknown container cx r₁ = .ok ⟨some c, filed₂, r₂⟩)
    (hdictionary : r₂.implements c.type .dictionary = .ok true)
    (hstatic : r₂.isDynamic c.type = .ok false) (site : Site) (loc : Location) :
    ∃ o, resolve site (.isIn loc key container) cx R = .ok o ∧
      ((∃ owner result, r₂.HasMethod c.type "ContainsKey" false owner result ∧
        o = ⟨some (.instanceCall (callInfo loc result) c owner "ContainsKey" [k]),
          filed₁ ++ filed₂, r₂⟩) ↔ r₂.Keyed c.type) ∧
      (¬r₂.Keyed c.type →
        o = ⟨none, filed₁ ++ filed₂ ++
          [.ofMessage .noSuchMember loc [r₂.typeName c.type, "ContainsKey"]], r₂⟩) ∧
      (r₂.Reaches c.type .dictionaryGeneric → r₂.Keyed c.type) := by
  obtain ⟨o₁, h₁, hmakes₁, -⟩ :=
    resolve_in_range hR.valid hscopes key .unknown (List.forall_mem_nil _)
  cases hkey.symm.trans h₁
  obtain ⟨o₂, h₂, hmakes₂, hwithin⟩ := resolve_in_range (hmakes₁.valid hR.valid)
    (fun t ht => (hscopes t ht).grow hmakes₁.grows) container .unknown (List.forall_mem_nil _)
  cases hcontainer.symm.trans h₂
  have hmakes : R.Makes r₂ := hmakes₁.trans hmakes₂
  have hr₂ : r₂.Valid := hmakes.valid hR.valid
  have htype : r₂.Has c.type := (hwithin c rfl).type
  have run {o : Outcome (Option TypedExpr)}
      (h : instanceCall loc c c.type "ContainsKey" [k] cx r₂ = .ok o) :
      resolve site (.isIn loc key container) cx R =
        .ok ⟨o.value, filed₁ ++ filed₂ ++ o.filed, o.registry⟩ := by
    rw [resolve, bind_run, hkey]
    simp only [bind_run, hcontainer, both, inOf_dictionary hnative hstatic hdictionary, h,
      List.append_assoc]
  obtain ⟨found, hends⟩ := Registry.findMemberWithin_ends hr₂ htype "ContainsKey"
  have hf : r₂.findMember c.type "ContainsKey" = .ok found := hends _ (Nat.lt_succ_of_lt htype)
  have hgeneric : r₂.Reaches c.type .dictionaryGeneric → r₂.Keyed c.type :=
    Registry.keyed_of_dictionaryGeneric hR hmakes
  cases found with
  | some p =>
    obtain ⟨result, hmethod⟩ := (hmakes.onlyMethods (hR.onlyMethods hothers)).hasMethod hf
    have hkeyed : r₂.Keyed c.type := (Registry.findMemberWithin_some hf).2
    refine ⟨_, run (instanceCall_of_hasMethod hmethod), ?_, absurd hkeyed, hgeneric⟩
    exact iff_of_true ⟨p.1, result, hmethod, by rw [List.append_nil]⟩ hkeyed
  | none =>
    have hnot : ¬r₂.Keyed c.type := by
      rintro ⟨d, hreaches, hdeclares⟩
      exact Registry.findMemberWithin_none hf d hreaches hdeclares
    refine ⟨_, run (instanceCall_missing hf (hr₂.nameOf htype)), ?_, fun _ => rfl, hgeneric⟩
    refine iff_of_false ?_ hnot
    rintro ⟨owner, result, ⟨parameters, hmethod⟩, -⟩
    cases hf.symm.trans hmethod

/-- A plain dictionary, which is refused, and an `Expando`, which has the generic interface. -/
theorem plain_dictionary_is_refused :
    let R := Registry.bootstrap defaultRoot
    let cx : Context := ⟨{}, ⟨[("d", .dictionary), ("e", .expando)], []⟩⟩
    let key : Expr := .literal .origin (.string "a")
    let k : TypedExpr := .constant (.value .string .origin) (.string "a")
    (R.implements .dictionary .dictionary = .ok true ∧ ¬R.Keyed .dictionary ∧
      resolve .unknown (.isIn .origin key (.name .origin "d")) cx R =
        .ok ⟨none, [.ofMessage .noSuchMember .origin ["IDictionary", "ContainsKey"]], R⟩) ∧
    R.implements .expando .dictionary = .ok true ∧ R.Reaches .expando .dictionaryGeneric ∧
      ∃ owner result, resolve .unknown (.isIn .origin key (.name .origin "e")) cx R =
        .ok ⟨some (.instanceCall (callInfo .origin result)
          (.localVar ⟨.expando, .place, .origin⟩ "e") owner "ContainsKey" [k]), [], R⟩ := by
  intro R cx key k
  have hvalid : R.Valid := Registry.bootstrap_valid defaultRoot
  have hothers : ∀ c entry, R.table.get c = .ok entry → TypeId.typeofHelper.index < c.index →
      ∀ m ∈ entry.kind.members, m.name = "ContainsKey" → m.isInstanceMethod = true :=
    fun c entry hget _ => Registry.bootstrap_onlyMethods defaultRoot c entry hget
  have hscopes : ∀ t ∈ cx.scopes.types, R.Has t := by
    have htypes : ∀ t ∈ cx.scopes.types, t.index ≤ TypeId.typeofHelper.index := by decide
    exact fun t ht => hvalid.has (htypes t ht)
  have hkey : resolve .unknown key cx R = .ok ⟨some k, [], R⟩ := by
    rw [resolve]
    rfl
  have hlocal (x : String) (t : TypeId) (h : cx.scopes.lookup x = some t) :
      resolve .unknown (.name .origin x) cx R =
        .ok ⟨some (.localVar ⟨t, .place, .origin⟩ x), [], R⟩ := by
    simp [resolve, ofName, bind_run, localType, context, pure, Resolve.pure, h]
  have hreaches : R.Reaches .expando .dictionaryGeneric :=
    Registry.reaches_of_implements hvalid (by decide +kernel)
  have hd : R.implements .dictionary .dictionary = .ok true := by decide +kernel
  have he : R.implements .expando .dictionary = .ok true := by decide +kernel
  have hnot : ¬R.Keyed .dictionary := by
    have hf : R.findMember .dictionary "ContainsKey" = .ok none := by decide +kernel
    rintro ⟨c, hreaches, hdeclares⟩
    exact Registry.findMemberWithin_none hf c hreaches hdeclares
  obtain ⟨o, ho, -, hrefused, -⟩ := in_dictionary_iff .start hothers rfl hscopes hkey
    (hlocal "d" .dictionary rfl) hd (by decide +kernel) .unknown .origin
  obtain ⟨o', ho', hcall, -, hgeneric⟩ := in_dictionary_iff .start hothers rfl hscopes hkey
    (hlocal "e" .expando rfl) he (by decide +kernel) .unknown .origin
  obtain ⟨owner, result, -, rfl⟩ := hcall.2 (hgeneric hreaches)
  have hname : R.typeName .dictionary = "IDictionary" := by decide +kernel
  rw [hrefused hnot] at ho
  exact ⟨⟨hd, hnot, hname ▸ ho⟩, he, hreaches, owner, result, ho'⟩

end Resolve

end Dynascript
