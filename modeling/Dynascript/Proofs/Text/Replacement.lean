import Dynascript.Text.Template
import Mathlib.Data.Nat.Init

/-!
# Replacing a pattern in a text

The patterns here start with a character that they have nowhere else, so two occurrences never
overlap. A text can then be cut in front of any character that the rest of the pattern does not
have : the cut changes neither what replacing gives (`replaceAll_cut`) nor the number of occurrences
(`occurrences_cut`).

`Joined pattern new s t n` says that `n` chosen occurrences of the pattern in `s` are replaced by
`new` in `t`. Replacing them all gives `t` exactly if there are no others, or if the pattern is put
in for itself (`Joined.replaceAll_eq_iff`). That no other condition will do comes from the lengths :
each occurrence that is replaced changes the length by the same amount (`length_replaceAll`).
-/

namespace Dynascript.Template

/-- How often `pattern` stands in the text. -/
def occurrences (pattern : List Char) : List Char → Nat
  | [] => 0
  | c :: rest =>
    if pattern.isPrefixOf (c :: rest) then occurrences pattern rest + 1
    else occurrences pattern rest

/-- Reading from left to right, there stands at each position one of some patterns or a character
to pass over. -/
theorem read_induction (found : List Char → Prop) (hfound : ¬ found [])
    {motive : List Char → Prop} (nil : motive [])
    (pattern : ∀ p w, found p → motive w → motive (p ++ w))
    (char : ∀ c w, (∀ p, found p → ¬ p <+: c :: w) → motive w → motive (c :: w))
    (text : List Char) : motive text := by
  induction hn : text.length using Nat.strong_induction_on generalizing text with
  | _ n ih =>
    subst hn
    by_cases h : ∃ p, found p ∧ p <+: text
    · obtain ⟨p, hp, w, rfl⟩ := h
      have hpos : 0 < p.length := List.length_pos_iff.2 fun hnil => hfound (hnil ▸ hp)
      exact pattern p w hp (ih w.length (by rw [List.length_append]; omega) w rfl)
    · cases text with
      | nil => exact nil
      | cons c w =>
        exact char c w (fun p hp hstarts => h ⟨p, hp, hstarts⟩) (ih w.length (by simp) w rfl)

variable {first x : Char} {tail new s t : List Char} {n : Nat}

/-! ## Cutting a text -/

/-- A match does not reach a character that the pattern does not have. -/
theorem isPrefixOf_cut {pattern : List Char} (hx : x ∉ pattern) (u w : List Char) :
    pattern.isPrefixOf (u ++ x :: w) = pattern.isPrefixOf u := by
  induction pattern generalizing u with
  | nil => simp
  | cons c pattern ih =>
    obtain ⟨hc, hx⟩ := List.ne_and_not_mem_of_not_mem_cons hx
    cases u with
    | nil => simp [List.isPrefixOf, Ne.symm hc]
    | cons d u => simp [List.isPrefixOf, ih hx]

theorem occurrences_cut (hx : x ∉ tail) (u w : List Char) :
    occurrences (first :: tail) (u ++ x :: w) =
      occurrences (first :: tail) u + occurrences (first :: tail) (x :: w) := by
  induction u with
  | nil => simp [occurrences]
  | cons c u ih =>
    have hmatch : (first :: tail).isPrefixOf (c :: (u ++ x :: w)) =
        (first :: tail).isPrefixOf (c :: u) := by
      simp [List.isPrefixOf, isPrefixOf_cut hx]
    rw [List.cons_append, occurrences, occurrences, hmatch, ih]
    split <;> omega

/-- What the pattern cannot start in is passed over. -/
theorem occurrences_append_of_not_mem {v : List Char} (hv : first ∉ v) (w : List Char) :
    occurrences (first :: tail) (v ++ w) = occurrences (first :: tail) w := by
  induction v with
  | nil => rfl
  | cons c v ih =>
    obtain ⟨hc, hv⟩ := List.ne_and_not_mem_of_not_mem_cons hv
    rw [List.cons_append, occurrences, if_neg (by simp [hc]), ih hv]

theorem occurrences_pattern (hfirst : first ∉ tail) (w : List Char) :
    occurrences (first :: tail) (first :: tail ++ w) = occurrences (first :: tail) w + 1 := by
  rw [List.cons_append, occurrences, if_pos (by simp), occurrences_append_of_not_mem hfirst]

theorem occurrences_char {pattern w : List Char} {c : Char} (h : ¬ pattern <+: c :: w) :
    occurrences pattern (c :: w) = occurrences pattern w := by
  rw [occurrences, if_neg (mt List.isPrefixOf_iff_prefix.1 h)]

theorem occurrences_eq_zero {text : List Char} :
    occurrences (first :: tail) text = 0 ↔ ¬ first :: tail <:+: text := by
  induction text with
  | nil => simp [occurrences]
  | cons c text ih =>
    rw [occurrences, List.infix_cons_iff, ← List.isPrefixOf_iff_prefix, not_or, ← ih]
    split <;> simp [*]

theorem occurrences_around (hfirst : first ∉ tail) (u w : List Char) :
    occurrences (first :: tail) (u ++ (first :: tail ++ w)) =
      occurrences (first :: tail) u + (occurrences (first :: tail) w + 1) := by
  rw [← occurrences_pattern hfirst]
  exact occurrences_cut hfirst u (tail ++ w)

theorem replaceFrom_eq (pattern new : List Char) (skip : Nat) (text : List Char) :
    replaceFrom pattern new skip text = replaceAll pattern new (text.drop skip) := by
  induction text generalizing skip with
  | nil => simp [replaceAll, replaceFrom]
  | cons c text ih =>
    cases skip with
    | zero => rfl
    | succ skip => simpa [replaceFrom] using ih skip

theorem replaceAll_pattern (w : List Char) :
    replaceAll (first :: tail) new (first :: tail ++ w) =
      new ++ replaceAll (first :: tail) new w := by
  rw [replaceAll, List.cons_append, replaceFrom, if_pos (by simp), replaceFrom_eq]
  simp

theorem replaceAll_char {pattern w : List Char} {c : Char} (h : ¬ pattern <+: c :: w) :
    replaceAll pattern new (c :: w) = c :: replaceAll pattern new w := by
  rw [replaceAll, replaceFrom, if_neg (mt List.isPrefixOf_iff_prefix.1 h)]
  rfl

/-- The cases of reading a text for one pattern. -/
theorem pattern_induction (first : Char) (tail : List Char) {motive : List Char → Prop}
    (nil : motive []) (pattern : ∀ w, motive w → motive (first :: tail ++ w))
    (char : ∀ c w, ¬ first :: tail <+: c :: w → motive w → motive (c :: w))
    (text : List Char) : motive text :=
  read_induction (· = first :: tail) (by simp) nil (fun _ w hp => hp ▸ pattern w)
    (fun c w hnone => char c w (hnone _ rfl)) text

theorem replaceAll_cut (hx : x ∉ tail) (u w : List Char) :
    replaceAll (first :: tail) new (u ++ x :: w) =
      replaceAll (first :: tail) new u ++ replaceAll (first :: tail) new (x :: w) := by
  induction u using pattern_induction first tail with
  | nil => rfl
  | pattern u ih =>
    rw [List.append_assoc, replaceAll_pattern, replaceAll_pattern, ih, List.append_assoc]
  | char c u hc ih =>
    have hmatch : ¬ first :: tail <+: c :: (u ++ x :: w) := by
      rw [← List.isPrefixOf_iff_prefix] at hc ⊢
      simpa [List.isPrefixOf, isPrefixOf_cut hx] using hc
    rw [List.cons_append, replaceAll_char hmatch, replaceAll_char hc, ih, List.cons_append]

theorem replaceAll_around (hfirst : first ∉ tail) (u w : List Char) :
    replaceAll (first :: tail) new (u ++ (first :: tail ++ w)) =
      replaceAll (first :: tail) new u ++ (new ++ replaceAll (first :: tail) new w) := by
  rw [← replaceAll_pattern]
  exact replaceAll_cut hfirst u (tail ++ w)

/-! ## What replacing changes -/

/-- An occurrence gives up the length of the pattern for the length of what is put in. -/
theorem length_replaceAll (hfirst : first ∉ tail) (new text : List Char) :
    (replaceAll (first :: tail) new text).length +
        occurrences (first :: tail) text * (first :: tail).length =
      text.length + occurrences (first :: tail) text * new.length := by
  induction text using pattern_induction first tail with
  | nil => simp [replaceAll, replaceFrom, occurrences]
  | pattern w ih =>
    rw [replaceAll_pattern, occurrences_pattern hfirst, List.length_append, List.length_append,
      Nat.succ_mul, Nat.succ_mul]
    omega
  | char c w hc ih =>
    have hlength : (c :: w).length = w.length + 1 := rfl
    rw [replaceAll_char hc, occurrences_char hc, List.length_cons, hlength]
    omega

theorem replaceAll_self (text : List Char) :
    replaceAll (first :: tail) (first :: tail) text = text := by
  induction text using pattern_induction first tail with
  | nil => rfl
  | pattern w ih => rw [replaceAll_pattern, ih]
  | char c w hc ih => rw [replaceAll_char hc, ih]

theorem replaceAll_of_occurrences (hfirst : first ∉ tail) {text : List Char}
    (h : occurrences (first :: tail) text = 0) : replaceAll (first :: tail) new text = text := by
  induction text using pattern_induction first tail with
  | nil => rfl
  | pattern w ih => exact absurd h (by rw [occurrences_pattern hfirst]; omega)
  | char c w hc ih => rw [replaceAll_char hc, ih (occurrences_char hc ▸ h)]

/-- The first occurrence shows what was put in for it. -/
theorem eq_or_of_replaceAll_eq_self (hlength : new.length = (first :: tail).length)
    {text : List Char} (h : replaceAll (first :: tail) new text = text) :
    new = first :: tail ∨ occurrences (first :: tail) text = 0 := by
  induction text using pattern_induction first tail with
  | nil => exact .inr rfl
  | pattern w ih =>
    rw [replaceAll_pattern] at h
    exact .inl (List.append_inj h hlength).1
  | char c w hc ih =>
    rw [replaceAll_char hc] at h
    rw [occurrences_char hc]
    exact ih (List.cons.inj h).2

/-- `s` and `t` are the same texts, with `pattern` between them in `s` and `new` in `t`. -/
inductive Joined (pattern new : List Char) : List Char → List Char → Nat → Prop
  | text (u : List Char) : Joined pattern new u u 0
  | next (u : List Char) {s t : List Char} {n : Nat} :
      Joined pattern new s t n →
        Joined pattern new (u ++ (pattern ++ s)) (u ++ (new ++ t)) (n + 1)

namespace Joined

theorem append_left {pattern : List Char} (h : Joined pattern new s t n) (v : List Char) :
    Joined pattern new (v ++ s) (v ++ t) n := by
  cases h with
  | text => exact .text (v ++ s)
  | next u h =>
    rw [← List.append_assoc, ← List.append_assoc v]
    exact .next (v ++ u) h

theorem le_occurrences (hfirst : first ∉ tail) (h : Joined (first :: tail) new s t n) :
    n ≤ occurrences (first :: tail) s := by
  induction h with
  | text u => exact Nat.zero_le _
  | next u h ih =>
    rw [occurrences_around hfirst]
    omega

theorem length_eq {pattern : List Char} (h : Joined pattern new s t n) :
    t.length + n * pattern.length = s.length + n * new.length := by
  induction h with
  | text u => simp
  | next u h ih =>
    simp only [List.length_append, Nat.succ_mul]
    omega

theorem eq_of_self {pattern : List Char} (h : Joined pattern pattern s t n) : s = t := by
  induction h with
  | text u => rfl
  | next u h ih => rw [ih]

/-- Other occurrences are replaced as well, which can leave the length as it should be only if each
one does. -/
theorem occurrences_or_length (hfirst : first ∉ tail) (h : Joined (first :: tail) new s t n)
    (heq : replaceAll (first :: tail) new s = t) :
    occurrences (first :: tail) s = n ∨ new.length = (first :: tail).length := by
  obtain ⟨others, hothers⟩ := Nat.exists_eq_add_of_le (h.le_occurrences hfirst)
  have hchosen := h.length_eq
  have hall := length_replaceAll hfirst new s
  rw [heq, hothers, Nat.add_mul, Nat.add_mul] at hall
  have hsame : others * new.length = others * (first :: tail).length := by omega
  rcases Nat.eq_zero_or_pos others with rfl | hpos
  · exact .inl hothers
  · exact .inr (Nat.eq_of_mul_eq_mul_left hpos hsame)

theorem replaceAll_eq_iff (hfirst : first ∉ tail) (h : Joined (first :: tail) new s t n) :
    replaceAll (first :: tail) new s = t ↔
      new = first :: tail ∨ occurrences (first :: tail) s = n := by
  constructor
  · intro heq
    rcases h.occurrences_or_length hfirst heq with hnone | hlength
    · exact .inr hnone
    -- What is put in is as long as the pattern, so the texts can be compared piece by piece.
    induction h with
    | text u => exact eq_or_of_replaceAll_eq_self hlength heq
    | @next u s t n h ih =>
      have hu := length_replaceAll hfirst new u
      rw [hlength] at hu
      rw [replaceAll_around hfirst] at heq
      obtain ⟨hu, hrest⟩ := List.append_inj heq (Nat.add_right_cancel hu)
      rcases eq_or_of_replaceAll_eq_self hlength hu with hnew | hu
      · exact .inl hnew
      refine (ih (List.append_cancel_left hrest)).imp_right fun hs => ?_
      rw [occurrences_around hfirst, hu, hs, Nat.zero_add]
  · rintro (rfl | hnone)
    · rw [h.eq_of_self, replaceAll_self]
    -- The chosen occurrences are all there are, so the texts between them hold none.
    induction h with
    | text u => exact replaceAll_of_occurrences hfirst hnone
    | next u h ih =>
      have hle := h.le_occurrences hfirst
      rw [occurrences_around hfirst] at hnone
      rw [replaceAll_around hfirst, replaceAll_of_occurrences hfirst (by omega), ih (by omega)]

end Joined

end Dynascript.Template
