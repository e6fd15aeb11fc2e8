import Dynascript.Proofs.Text.Replacement
import Mathlib.Data.List.Induction
import Mathlib.Data.Nat.Basic
import Mathlib.Logic.Function.Basic
import Mathlib.Order.Basic

/-!
# Filling a template at one go

Read from left to right, a template is made of places and of characters that stand for themselves
(`parts`). `substitute` puts in all arguments at one go : every place shows its argument as it is.
`fill` puts them in one after the other, each over the text that the ones before it have left.

The places that the template has itself are there at each step, so the two go on alike until a step
finds a place more, which the arguments before it have brought about. For every template and all
arguments, `fill` and `substitute` agree on all first parts of the arguments exactly if no step
finds such a place, other than one that is put in for itself (`fill_eq_substitute_iff`).
-/

namespace Dynascript.Template

/-- What a template is made of. -/
inductive Part where
  /-- A character that stands for itself. -/
  | char (c : Char)
  /-- The place of argument `i`. -/
  | place (i : Nat)
deriving DecidableEq

/-- The number of the place that the text starts with, if it is below `n`. -/
def placeAt? (n : Nat) (text : List Char) : Option Nat :=
  (List.range n).find? fun i => (place i).isPrefixOf text

/-- The parts of a text, with places below `n`, once its first `skip` characters have been
dropped. -/
def partsFrom (n : Nat) : Nat → List Char → List Part
  | _, [] => []
  | skip + 1, _ :: rest => partsFrom n skip rest
  | 0, c :: rest =>
    match placeAt? n (c :: rest) with
    | some i => .place i :: partsFrom n ((place i).length - 1) rest
    | none => .char c :: partsFrom n 0 rest

/-- The parts of a text, read from left to right, with places below `n`. -/
def parts (n : Nat) (text : List Char) : List Part := partsFrom n 0 text

/-- The text of a part, where the place of argument `i` shows `value i`. -/
def Part.spell (value : Nat → List Char) : Part → List Char
  | char c => [c]
  | place i => value i

def spell (value : Nat → List Char) (ps : List Part) : List Char := ps.flatMap (Part.spell value)

/-- What the place of argument `i` shows : the argument, or itself if there is none. -/
def shown (args : List String) (i : Nat) : List Char := (args[i]?.map String.toList).getD (place i)

/-- `template` with each place below the number of arguments replaced by its argument, all at one
go. -/
def substitute (template : String) (args : List String) : String :=
  String.ofList (spell (shown args) (parts args.length template.toList))

variable {i j n : Nat} {value : Nat → List Char}

/-! ## Places -/

/-- A place after its brace. -/
def placeRest (i : Nat) : List Char := (toString i).toList ++ ['\x7d']

theorem place_eq (i : Nat) : place i = '\x7b' :: placeRest i := rfl

theorem isDigit_of_mem_toString {c : Char} (h : c ∈ (toString i).toList) : c.isDigit = true := by
  rw [Nat.toString_eq_repr, Nat.toList_repr] at h
  exact Nat.isDigit_of_mem_toDigits (by decide) (by decide) h

/-- A number can be read off its digits. -/
theorem toString_injective (h : toString i = toString j) : i = j := by
  have hdigits : Nat.toDigits 10 i = Nat.toDigits 10 j := String.ofList_inj.1 h
  have hvalue (n : Nat) : Nat.ofDigitChars 10 (Nat.toDigits 10 n) 0 = n :=
    Nat.ofDigitChars_toDigits (by decide) (by decide)
  rw [← hvalue i, hdigits, hvalue]

theorem brace_not_mem (i : Nat) : '\x7b' ∉ placeRest i := by
  intro h
  rcases List.mem_append.1 h with h | h
  · exact absurd (isDigit_of_mem_toString h) (by decide)
  · exact absurd (List.mem_singleton.1 h) (by decide)

/-- No place is the beginning of another one. -/
theorem eq_of_starts_place {w : List Char} (h : place i <+: place j ++ w) : i = j := by
  -- The number is what stands before the closing brace.
  have hnumber (k : Nat) (v : List Char) :
      (placeRest k ++ v).takeWhile Char.isDigit = (toString k).toList := by
    rw [placeRest, List.append_assoc,
      List.takeWhile_append_of_pos fun _ => isDigit_of_mem_toString]
    exact List.append_nil _
  obtain ⟨v, hv⟩ := h
  have hrest : placeRest i ++ v = placeRest j ++ w := (List.cons.inj hv).2
  have hdigits := congrArg (List.takeWhile Char.isDigit) hrest
  rw [hnumber, hnumber, String.toList_inj] at hdigits
  exact toString_injective hdigits

theorem placeAt?_place (hi : i < n) (w : List Char) : placeAt? n (place i ++ w) = some i := by
  refine List.find?_range_eq_some.2 ⟨by simp, List.mem_range.2 hi, fun k hk => ?_⟩
  rw [Bool.not_eq_true', ← Bool.not_eq_true, List.isPrefixOf_iff_prefix]
  exact fun hstarts => hk.ne (eq_of_starts_place hstarts)

theorem placeAt?_eq_none {text : List Char} :
    placeAt? n text = none ↔ ∀ i < n, ¬ place i <+: text := by
  simp [placeAt?]

/-! ## Parts -/

theorem partsFrom_eq (n skip : Nat) (text : List Char) :
    partsFrom n skip text = parts n (text.drop skip) := by
  induction text generalizing skip with
  | nil => simp [parts, partsFrom]
  | cons c text ih =>
    cases skip with
    | zero => rfl
    | succ skip => simpa [partsFrom] using ih skip

theorem parts_place (hi : i < n) (w : List Char) :
    parts n (place i ++ w) = .place i :: parts n w := by
  have hplace := placeAt?_place hi w
  rw [place_eq, List.cons_append] at hplace ⊢
  rw [parts, partsFrom, hplace]
  simp [partsFrom_eq, place_eq]

theorem parts_char {c : Char} {w : List Char} (h : ∀ i < n, ¬ place i <+: c :: w) :
    parts n (c :: w) = .char c :: parts n w := by
  rw [parts, partsFrom, placeAt?_eq_none.2 h]
  rfl

theorem parts_append_of_not_mem {v : List Char} (hv : '\x7b' ∉ v) (n : Nat) (w : List Char) :
    parts n (v ++ w) = v.map .char ++ parts n w := by
  induction v with
  | nil => rfl
  | cons c v ih =>
    obtain ⟨hc, hv⟩ := List.ne_and_not_mem_of_not_mem_cons hv
    have hnone : ∀ i < n, ¬ place i <+: c :: (v ++ w) := by
      intro i _ hstarts
      exact hc (List.cons_prefix_cons.1 hstarts).1
    rw [List.cons_append, parts_char hnone, ih hv]
    rfl

/-- A place for which there is no argument stands for itself. -/
theorem parts_place_of_le (hi : n ≤ i) (w : List Char) :
    parts n (place i ++ w) = (place i).map .char ++ parts n w := by
  have hnone : ∀ k < n, ¬ place k <+: place i ++ w := by
    intro k hk hstarts
    exact absurd (eq_of_starts_place hstarts) (by omega)
  rw [place_eq i, List.cons_append] at hnone ⊢
  rw [parts_char hnone, parts_append_of_not_mem (brace_not_mem i)]
  rfl

/-- The cases of reading a template. -/
theorem parts_induction (n : Nat) {motive : List Char → Prop} (nil : motive [])
    (place : ∀ i < n, ∀ w, motive w → motive (place i ++ w))
    (char : ∀ c w, (∀ i < n, ¬ Template.place i <+: c :: w) → motive w → motive (c :: w))
    (text : List Char) : motive text := by
  refine read_induction (fun p => ∃ i < n, p = Template.place i) ?_ nil ?_ ?_ text
  · rintro ⟨i, -, h⟩
    cases h
  · rintro _ w ⟨i, hi, rfl⟩
    exact place i hi w
  · intro c w hnone
    exact char c w fun i hi => hnone _ ⟨i, hi, rfl⟩

/-- The template has each place as often as it is among the parts. -/
theorem count_parts (hj : j < n) (text : List Char) :
    (parts n text).count (.place j) = occurrences (place j) text := by
  induction text using parts_induction n with
  | nil => rfl
  | place i hi w ih =>
    rw [parts_place hi, List.count_cons, ih]
    by_cases hij : i = j
    · subst hij
      rw [place_eq, occurrences_pattern (brace_not_mem i)]
      simp
    · have hnone : ¬ place j <+: '\x7b' :: (placeRest i ++ w) := fun h =>
        hij (eq_of_starts_place h).symm
      rw [place_eq i, List.cons_append, occurrences_char hnone, place_eq j,
        occurrences_append_of_not_mem (brace_not_mem i)]
      simp [hij]
  | char c w hnone ih => rw [parts_char hnone, occurrences_char (hnone j hj), ← ih]; simp

/-! ## Spelling parts out -/

@[simp] theorem spell_nil (value : Nat → List Char) : spell value [] = [] := rfl

@[simp] theorem spell_cons (value : Nat → List Char) (p : Part) (ps : List Part) :
    spell value (p :: ps) = p.spell value ++ spell value ps := rfl

theorem spell_literal (value : Nat → List Char) (v : List Char) (ps : List Part) :
    spell value (v.map .char ++ ps) = v ++ spell value ps := by
  induction v with
  | nil => rfl
  | cons c v ih => simp [ih, Part.spell]

/-- Places that show themselves may as well be read as characters. -/
theorem spell_parts_of_le (hjn : j ≤ n) (hvalue : ∀ i, j ≤ i → value i = place i)
    (text : List Char) : spell value (parts n text) = spell value (parts j text) := by
  induction text using parts_induction n with
  | nil => rfl
  | place i hi w ih =>
    rw [parts_place hi, spell_cons, ih]
    by_cases hij : i < j
    · rw [parts_place hij, spell_cons]
    · rw [parts_place_of_le (by omega), spell_literal, Part.spell, hvalue i (by omega)]
  | char c w hnone ih =>
    rw [parts_char hnone, parts_char fun i hi => hnone i (by omega), spell_cons, spell_cons, ih]

/-- Where all places show themselves, the template is spelled out. -/
theorem spell_parts (n : Nat) (text : List Char) : spell place (parts n text) = text := by
  rw [spell_parts_of_le n.zero_le fun _ _ => rfl]
  induction text with
  | nil => rfl
  | cons c text ih =>
    rw [parts_char fun i hi => absurd hi i.not_lt_zero, spell_cons, ih]
    rfl

theorem joined_spell (hvalue : value j = place j) (new : List Char) (ps : List Part) :
    Joined (place j) new (spell value ps) (spell (Function.update value j new) ps)
      (ps.count (.place j)) := by
  induction ps with
  | nil => exact .text []
  | cons p ps ih =>
    by_cases hp : p = .place j
    · subst hp
      simpa [Part.spell, hvalue] using ih.next []
    · have hsame : p.spell (Function.update value j new) = p.spell value := by
        cases p with
        | char c => rfl
        | place i => exact Function.update_of_ne (mt (congrArg Part.place) hp) _ _
      rw [spell_cons, spell_cons, hsame, List.count_cons_of_ne hp]
      exact ih.append_left _

/-! ## One argument more -/

variable {template arg : String} {args : List String}

theorem fillFrom_concat (text : List Char) :
    fillFrom i (args ++ [arg]) text =
      replaceAll (place (i + args.length)) arg.toList (fillFrom i args text) := by
  induction args generalizing i text with
  | nil => rfl
  | cons a args ih =>
    rw [List.cons_append, fillFrom, fillFrom, ih, List.length_cons]
    congr 2
    omega

theorem fill_concat (template : String) (args : List String) (arg : String) :
    (fill template (args ++ [arg])).toList =
      replaceAll (place args.length) arg.toList (fill template args).toList := by
  simp [fill, fillFrom_concat]

theorem shown_of_le (h : args.length ≤ i) : shown args i = place i := by
  simp [shown, h]

theorem shown_concat (args : List String) (arg : String) :
    shown (args ++ [arg]) = Function.update (shown args) args.length arg.toList := by
  funext i
  rcases lt_trichotomy i args.length with hi | rfl | hi
  · rw [Function.update_of_ne hi.ne, shown, shown, List.getElem?_append_left hi]
  · simp [shown]
  · have hlonger : (args ++ [arg]).length ≤ i := by
      rw [List.length_append]
      exact hi
    rw [Function.update_of_ne hi.ne', shown_of_le hi.le, shown_of_le hlonger]

/-- One argument more is put in where the template has its place, and nowhere else. -/
theorem substitute_concat (template : String) (args : List String) (arg : String) :
    Joined (place args.length) arg.toList (substitute template args).toList
      (substitute template (args ++ [arg])).toList
      (occurrences (place args.length) template.toList) := by
  have hlength : (args ++ [arg]).length = args.length + 1 := by simp
  rw [substitute, substitute, String.toList_ofList, String.toList_ofList, hlength, shown_concat,
    ← spell_parts_of_le args.length.le_succ (fun i => shown_of_le),
    ← count_parts args.length.lt_succ_self]
  exact joined_spell (shown_of_le le_rfl) _ _

theorem fill_concat_eq_iff (h : fill template args = substitute template args) :
    fill template (args ++ [arg]) = substitute template (args ++ [arg]) ↔
      arg.toList = place args.length ∨
        occurrences (place args.length) (substitute template args).toList =
          occurrences (place args.length) template.toList := by
  rw [← String.toList_inj, fill_concat, h]
  exact (substitute_concat template args arg).replaceAll_eq_iff (brace_not_mem _)

theorem fill_nil (template : String) : fill template [] = template := by
  simp [fill, fillFrom]

theorem substitute_nil (template : String) : substitute template [] = template := by
  rw [← String.toList_inj, substitute, String.toList_ofList]
  exact spell_parts 0 template.toList

/-- One argument finds the template as it was written. -/
theorem fill_one (template arg : String) : fill template [arg] = substitute template [arg] := by
  have hnil : fill template [] = substitute template [] := by rw [fill_nil, substitute_nil]
  exact (fill_concat_eq_iff hnil).2 (.inr (by rw [substitute_nil]))

/-- The two agree on all first parts of the arguments exactly if each step finds no place but the
template's own, or puts the place in for itself. -/
theorem fill_eq_substitute_iff (template : String) (args : List String) :
    (∀ front, front <+: args → fill template front = substitute template front) ↔
      ∀ front arg, front ++ [arg] <+: args → arg.toList = place front.length ∨
        occurrences (place front.length) (substitute template front).toList =
          occurrences (place front.length) template.toList := by
  have hshorter {front : List String} {arg : String} (h : front ++ [arg] <+: args) :
      front <+: args := (List.prefix_append front [arg]).trans h
  constructor
  · intro h front arg hfront
    exact (fill_concat_eq_iff (h front (hshorter hfront))).1 (h _ hfront)
  · intro h front
    induction front using List.reverseRecOn with
    | nil =>
      intro _
      rw [fill_nil, substitute_nil]
    | append_singleton front arg ih =>
      intro hfront
      exact (fill_concat_eq_iff (ih (hshorter hfront))).2 (h front arg hfront)

end Dynascript.Template
