import Dynascript.Proofs.Resolve.Parts
import Dynascript.Proofs.Script.Decoding
import Dynascript.Proofs.Script.Writing
import Mathlib.Data.Option.NAry

/-!
# What script text says

The text of an expression of accesses, assignments and the dynamic operators is the text of its
words (`text_spells`) : resolution for the script target keeps every one of them
(`resolve_keeps`), and nothing else is written.

So two such expressions have the same text if and only if their words read alike
(`text_eq_iff_regroup`). Grouped expressions have different texts unless they are the same. Others
share theirs with the grouped expression that their words read as.
-/

namespace Dynascript

/-! ## Expressions without their places -/

open Script

namespace Expr

mutual

/-- The expression without its places, if it has accesses, assignments and the dynamic operators
only. -/
def phrase? : Expr → Option Phrase
  | name _ n => some (.name n)
  | member _ target n => target.phrase?.map (.member · n)
  | element _ target args => Option.map₂ .element target.phrase? (phrases? args)
  | assign _ target value => Option.map₂ .assign target.phrase? value.phrase?
  | delete _ operand => operand.phrase?.map (.unary .delete)
  | typeof _ operand => operand.phrase?.map (.unary .typeof)
  | isIn _ key container => Option.map₂ .isIn key.phrase? container.phrase?
  | literal .. | call .. | typeRef .. | object .. | array .. | new .. | undefined .. | regex ..
  | xml .. | xmlQuery .. => none

def phrases? : List Expr → Option (List Phrase)
  | [] => some []
  | e :: es => Option.map₂ List.cons e.phrase? (phrases? es)

end

/-- A chain of names starts at a local variable. -/
theorem declares_root {scopes : Scopes} {root : String} :
    ∀ {e : Expr} {t : Phrase}, e.phrase? = some t → t.spelled scopes = true →
      e.root? = some root → scopes.declares root = true
  | name _ n, t, he, ht, hroot => by
    cases he
    cases hroot
    exact (Bool.and_eq_true_iff.1 ht).2
  | member _ target n, t, he, ht, hroot => by
    obtain ⟨t, htarget, rfl⟩ := Option.map_eq_some_iff.1 he
    exact declares_root htarget (Bool.and_eq_true_iff.1 ht).2 hroot

end Expr

namespace TypedExpr

mutual

/-- The tree without places and types, if it has such nodes only. -/
def phrase? (e : TypedExpr) : Option Phrase :=
  match e with
  | .localVar _ n => some (.name n)
  | .instanceField _ target _ n | .dynamicMember _ target n => target.phrase?.map (.member · n)
  | .element _ target args => Option.map₂ .element target.phrase? (phrases? args)
  | .assign _ target value => Option.map₂ .assign target.phrase? value.phrase?
  | .scriptDelete _ operand => operand.phrase?.map (.unary .delete)
  | .scriptTypeof _ operand => operand.phrase?.map (.unary .typeof)
  | .scriptIn _ key container => Option.map₂ .isIn key.phrase? container.phrase?
  | _ => none
termination_by structural e

def phrases? (es : List TypedExpr) : Option (List Phrase) :=
  match es with
  | [] => some []
  | e :: es => Option.map₂ List.cons e.phrase? (phrases? es)
termination_by structural es

end

end TypedExpr

/-! ## Resolution keeps the words -/

namespace Resolve

variable {cx : Context} {r : Registry}

/-- The tree is a value and has the words of `t`. -/
def Keeps (t : Phrase) (_ : Registry) (tree : TypedExpr) : Prop :=
  tree.phrase? = some t ∧ tree.role ≠ .type

def KeepsAll (ts : List Phrase) (_ : Registry) (trees : List TypedExpr) : Prop :=
  TypedExpr.phrases? trees = some ts

theorem ofName_keeps (loc : Location) {n : String} (h : cx.scopes.declares n = true) :
    Settles True (Keeps (.name n)) (ofName loc n) cx r := by
  refine always_localType ?_
  obtain ⟨type, htype⟩ := Option.isSome_iff_exists.1 h
  rw [htype]
  exact settles_some ⟨rfl, nofun⟩

theorem pathType_none {e : Expr} {t : Phrase} (he : e.phrase? = some t)
    (ht : t.spelled cx.scopes = true) : Always (pathType e) cx r (Answered (· = none) r) := by
  unfold pathType
  split
  · rename_i root path hroot _
    refine always_localType ?_
    obtain ⟨type, htype⟩ := Option.isSome_iff_exists.1 (Expr.declares_root he ht hroot)
    rw [htype]
    exact answered_pure rfl
  · exact answered_pure rfl

theorem memberOf_keeps (loc : Location) {target : TypedExpr} {t : Phrase} (n : String)
    (ht : Keeps t r target) :
    Settles True (Keeps (.member t n)) (memberOf loc target n) cx r := by
  obtain ⟨ht, hrole⟩ := ht
  have hphrase : target.phrase?.map (Phrase.member · n) = some (.member t n) := by rw [ht]; rfl
  have hbeq : (target.role == .type) = false := by simpa using hrole
  have late : Settles True (Keeps (.member t n))
      (pure (some (.dynamicMember ⟨.dynamic, .place, loc⟩ target n))) cx r :=
    settles_some ⟨hphrase, nofun⟩
  have otherwise : Settles True (Keeps (.member t n)) (do
      let keyed ← ask (·.isDynamicClass target.type)
      if keyed then return some (.dynamicMember ⟨.dynamic, .place, loc⟩ target n)
      else failNoMember loc target.type n) cx r := by
    refine always_ask fun keyed _ => ?_
    split
    · exact late
    · exact settles_failNoMember
  unfold memberOf
  simp only [hbeq, Bool.false_eq_true, if_false]
  refine always_ask fun dynamic _ => ?_
  split
  · exact late
  · refine always_ask fun found _ => ?_
    split
    · split
      · split
        · exact settles_some ⟨hphrase, nofun⟩
        · exact settles_fail
        · exact settles_fail
      · exact otherwise
    · exact otherwise

theorem elementOf_keeps (loc : Location) {target : TypedExpr} {args : List TypedExpr} {t : Phrase}
    {ts : List Phrase} (ht : Keeps t r target) (hargs : KeepsAll ts r args) :
    Settles True (Keeps (.element t ts)) (elementOf loc target args) cx r := by
  refine always_answer (elementType_answered target.type) fun type _ => ?_
  split
  · exact settles_some ⟨Option.map₂_eq_some_iff.2 ⟨_, _, ht.1, hargs, rfl⟩, nofun⟩
  · exact always_typeName settles_fail

mutual

/-- For the script target, what an expression resolves to has its words. -/
theorem resolve_keeps (hs : cx.settings.isScript = true) :
    ∀ {e : Expr} {t : Phrase} (site : Site) (r : Registry), e.phrase? = some t →
      t.spelled cx.scopes = true → Settles True (Keeps t) (resolve site e) cx r
  | .name loc n, t, site, r, he, ht => by
    cases he
    rw [resolve]
    exact ofName_keeps loc (Bool.and_eq_true_iff.1 ht).2
  | .member loc target n, t, site, r, he, ht => by
    rw [resolve]
    refine always_answer (pathType_none he ht) ?_
    rintro _ rfl
    obtain ⟨t, htarget, rfl⟩ := Option.map_eq_some_iff.1 he
    exact Settles.andThen (resolve_keeps hs .unknown r htarget (Bool.and_eq_true_iff.1 ht).2)
      fun _ _ _ htarget => memberOf_keeps loc n htarget
  | .element loc target args, t, site, r, he, ht => by
    obtain ⟨t, ts, htarget, hargs, rfl⟩ := Option.map₂_eq_some_iff.1 he
    obtain ⟨ht, hts⟩ := Bool.and_eq_true_iff.1 ht
    rw [resolve]
    exact .both (resolve_keeps hs .unknown r htarget ht)
      (fun r' _ => resolveAll_keeps hs r' hargs hts) (fun _ _ _ _ => id)
      fun _ _ _ _ htarget hargs => elementOf_keeps loc htarget hargs
  | .assign loc target value, t, site, r, he, ht => by
    obtain ⟨t, v, htarget, hvalue, rfl⟩ := Option.map₂_eq_some_iff.1 he
    obtain ⟨ht, hv⟩ := Bool.and_eq_true_iff.1 ht
    rw [resolve]
    refine .andThen (resolve_keeps hs .unknown r htarget ht) fun r' place _ hplace => ?_
    split
    · refine .andThen (resolve_keeps hs _ r' hvalue hv) fun _ value _ hvalue => ?_
      exact settles_some ⟨Option.map₂_eq_some_iff.2 ⟨_, _, hplace.1, hvalue.1, rfl⟩, nofun⟩
    · exact settles_fail
  | .delete loc operand, t, site, r, he, ht => by
    obtain ⟨t, hoperand, rfl⟩ := Option.map_eq_some_iff.1 he
    unfold resolve
    refine always_isScript ?_
    rw [hs]
    refine Settles.andThen (resolve_keeps hs .unknown r hoperand ht) fun _ operand _ hoperand => ?_
    exact settles_some ⟨Option.map_eq_some_iff.2 ⟨t, hoperand.1, rfl⟩, nofun⟩
  | .typeof loc operand, t, site, r, he, ht => by
    obtain ⟨t, hoperand, rfl⟩ := Option.map_eq_some_iff.1 he
    rw [resolve]
    refine always_isExtended ?_
    split
    · exact settles_fail
    · refine Settles.andThen (resolve_keeps hs .unknown r hoperand ht)
        fun _ operand _ hoperand => ?_
      refine always_isScript ?_
      rw [hs]
      exact settles_some ⟨Option.map_eq_some_iff.2 ⟨t, hoperand.1, rfl⟩, nofun⟩
  | .isIn loc key container, t, site, r, he, ht => by
    obtain ⟨k, c, hkey, hcontainer, rfl⟩ := Option.map₂_eq_some_iff.1 he
    obtain ⟨hk, hc⟩ := Bool.and_eq_true_iff.1 ht
    rw [resolve]
    refine .both (resolve_keeps hs .unknown r hkey hk)
      (fun r' _ => resolve_keeps hs .unknown r' hcontainer hc) (fun _ _ _ _ => id)
      fun _ key container _ hkey hcontainer => ?_
    refine always_isScript ?_
    rw [hs]
    exact settles_some ⟨Option.map₂_eq_some_iff.2 ⟨_, _, hkey.1, hcontainer.1, rfl⟩, nofun⟩

theorem resolveAll_keeps (hs : cx.settings.isScript = true) :
    ∀ {es : List Expr} {ts : List Phrase} (r : Registry), Expr.phrases? es = some ts →
      Phrase.allSpelled cx.scopes ts = true → Settles True (KeepsAll ts) (resolveAll es) cx r
  | [], ts, r, hes, _ => by
    cases hes
    exact settles_some rfl
  | e :: es, ts, r, hes, hts => by
    obtain ⟨t, ts, he, hrest, rfl⟩ := Option.map₂_eq_some_iff.1 hes
    obtain ⟨ht, hts⟩ := Bool.and_eq_true_iff.1 hts
    rw [resolveAll]
    refine .both (resolve_keeps hs .unknown r he ht)
      (fun r' _ => resolveAll_keeps hs r' hrest hts) (fun _ _ _ _ => id)
      fun _ _ _ _ htree htrees => ?_
    exact settles_some (Option.map₂_eq_some_iff.2 ⟨_, _, htree.1, htrees, rfl⟩)

end

end Resolve

namespace Script

variable {r : Registry}

/-! ## The text of a tree -/

/-- Everything that was meant is written, and has the characters `cs`. -/
def Spells (em : Emission Write) (cs : List Char) : Prop :=
  Completes em ∧ em.written.flatMap (·.text.toList) = cs

theorem spells_pieces (loc : Location) (texts : List String) :
    Spells (pieces loc texts) (texts.flatMap String.toList) :=
  ⟨rfl, List.flatMap_map ..⟩

theorem Spells.append {a b : Emission Write} {cs ds : List Char} (ha : Spells a cs)
    (hb : Spells b ds) : Spells (a ++ b) (cs ++ ds) := by
  refine ⟨ha.1.append hb.1, ?_⟩
  rw [Emission.written_append ha.1, List.flatMap_append, ha.2, hb.2]

theorem Spells.cast {em : Emission Write} {cs ds : List Char} (h : Spells em cs) (heq : cs = ds) :
    Spells em ds :=
  heq ▸ h

mutual

/-- A tree is written as the words it has. -/
theorem text_spells :
    ∀ {e : TypedExpr} {t : Phrase}, e.phrase? = some t → Spells (text r e) t.chars
  | .localVar i n, t, h => by
    cases h
    exact spells_pieces ..
  | .instanceField i target _ n, t, h | .dynamicMember i target n, t, h => by
    obtain ⟨t, htarget, rfl⟩ := Option.map_eq_some_iff.1 h
    refine ((text_spells htarget).append (spells_pieces ..)).cast ?_
    simp
  | .element i target args, t, h => by
    obtain ⟨t, ts, htarget, hargs, rfl⟩ := Option.map₂_eq_some_iff.1 h
    refine ((((text_spells htarget).append (spells_pieces ..)).append
      (list_spells hargs)).append (spells_pieces ..)).cast ?_
    simp
  | .assign i target value, t, h => by
    obtain ⟨t, v, htarget, hvalue, rfl⟩ := Option.map₂_eq_some_iff.1 h
    refine (((text_spells htarget).append (spells_pieces ..)).append (text_spells hvalue)).cast ?_
    simp
  | .scriptDelete i operand, t, h | .scriptTypeof i operand, t, h => by
    obtain ⟨t, hoperand, rfl⟩ := Option.map_eq_some_iff.1 h
    exact ((spells_pieces ..).append (text_spells hoperand)).cast rfl
  | .scriptIn i key container, t, h => by
    obtain ⟨k, c, hkey, hcontainer, rfl⟩ := Option.map₂_eq_some_iff.1 h
    refine (((text_spells hkey).append (spells_pieces ..)).append
      (text_spells hcontainer)).cast ?_
    simp

theorem list_spells {loc : Location} :
    ∀ {es : List TypedExpr} {ts : List Phrase}, TypedExpr.phrases? es = some ts →
      Spells (list r loc es) (Words.charsAll (Phrase.wordsAll ts))
  | [], ts, h => by
    cases h
    exact ⟨rfl, rfl⟩
  | e :: es, ts, h => by
    obtain ⟨t, ts, he, hes, rfl⟩ := Option.map₂_eq_some_iff.1 h
    exact (text_spells he).append (listRest_spells hes)

theorem listRest_spells {loc : Location} :
    ∀ {es : List TypedExpr} {ts : List Phrase}, TypedExpr.phrases? es = some ts →
      Spells (listRest r loc es) (Words.charsMore (Phrase.wordsAll ts))
  | [], ts, h => by
    cases h
    exact ⟨rfl, rfl⟩
  | e :: es, ts, h => by
    obtain ⟨t, ts, he, hes, rfl⟩ := Option.map₂_eq_some_iff.1 h
    exact (((spells_pieces ..).append (text_spells he)).append (listRest_spells hes)).cast rfl

end

/-- What a resolved expression is written as. -/
theorem resolved_spells {cx : Context} {e : Expr} {t : Phrase} {site : Site}
    {o : Outcome (Option TypedExpr)} {tree : TypedExpr} (hs : cx.settings.isScript = true)
    (he : e.phrase? = some t) (ht : t.spelled cx.scopes = true)
    (ho : Resolve.resolve site e cx r = .ok o) (htree : o.value = some tree) (r' : Registry) :
    ∃ writes, (text r' tree).result = .ok (.ok writes) ∧
      (Buffer.empty.writeAll writes).text.toList = t.chars := by
  obtain ⟨-, hkeeps, -⟩ := (Resolve.resolve_keeps hs site r he ht o ho).quiet tree htree
  obtain ⟨hcompletes, hchars⟩ := text_spells (r := r') hkeeps
  refine ⟨_, result_of_completes hcompletes, ?_⟩
  rw [Buffer.toList_writeAll, hchars]
  rfl

/-- Two expressions of accesses, assignments and the dynamic operators, with plain names and from
local variables, are written with the same text if and only if their words read alike. If both are
grouped, they are then the same up to their places. -/
theorem text_eq_iff_regroup (cx : Context) (hs : cx.settings.isScript = true) (r r' : Registry)
    (site site' : Site) (e e' : Expr) {t t' : Phrase} {o o' : Outcome (Option TypedExpr)}
    {tree tree' : TypedExpr} (he : e.phrase? = some t) (he' : e'.phrase? = some t')
    (ht : t.spelled cx.scopes = true) (ht' : t'.spelled cx.scopes = true)
    (ho : Resolve.resolve site e cx r = .ok o) (ho' : Resolve.resolve site' e' cx r' = .ok o')
    (htree : o.value = some tree) (htree' : o'.value = some tree') :
    ∃ writes writes', (text o.registry tree).result = .ok (.ok writes) ∧
      (text o'.registry tree').result = .ok (.ok writes') ∧
      ((Buffer.empty.writeAll writes).text = (Buffer.empty.writeAll writes').text ↔
        t.regroup = t'.regroup) ∧
      (t.grouped = true → t'.grouped = true →
        (Buffer.empty.writeAll writes).text = (Buffer.empty.writeAll writes').text → t = t') := by
  obtain ⟨writes, hwrites, hchars⟩ := resolved_spells hs he ht ho htree o.registry
  obtain ⟨writes', hwrites', hchars'⟩ := resolved_spells hs he' ht' ho' htree' o'.registry
  have hsame : (Buffer.empty.writeAll writes).text = (Buffer.empty.writeAll writes').text ↔
      t.regroup = t'.regroup := by
    rw [← String.toList_inj, hchars, hchars', Phrase.chars_eq_iff ht ht']
  refine ⟨writes, writes', hwrites, hwrites', hsame, fun hg hg' htext => ?_⟩
  have hregroup := hsame.1 htext
  rwa [(regroup_eq_iff t).2 hg, (regroup_eq_iff t').2 hg'] at hregroup

/-- `delete` of an `in` is written as the `in` of a `delete` is. -/
theorem delete_of_in_is_in_of_delete :
    let r := Registry.bootstrap defaultRoot
    let cx : Context :=
      ⟨{ target := .script }, (Scopes.fresh.declare "a" .dynamic).declare "b" .dynamic⟩
    let a : Expr := .name .origin "a"
    let b : Expr := .name .origin "b"
    let e : Expr := .delete .origin (.isIn .origin a b)
    let e' : Expr := .isIn .origin (.delete .origin a) b
    e.phrase? ≠ e'.phrase? ∧ ∃ tree tree' writes writes',
      Resolve.resolve .unknown e cx r = .ok ⟨some tree, [], r⟩ ∧
      Resolve.resolve .unknown e' cx r = .ok ⟨some tree', [], r⟩ ∧
      (text r tree).result = .ok (.ok writes) ∧ (text r tree').result = .ok (.ok writes') ∧
      (Buffer.empty.writeAll writes).text = (Buffer.empty.writeAll writes').text := by
  intro r cx a b e e'
  obtain ⟨writes, writes', hwrites, hwrites', hsame, -⟩ :=
    text_eq_iff_regroup cx rfl r r .unknown .unknown e e' rfl rfl rfl rfl rfl rfl rfl rfl
  exact ⟨nofun, _, _, writes, writes', rfl, rfl, hwrites, hwrites', hsame.2 rfl⟩

end Script

end Dynascript
