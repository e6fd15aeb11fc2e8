import Dynascript.Proofs.Script.Grouping
import Dynascript.Resolve.Scope

/-!
# The characters of words

Words are written with a space behind `delete` and `typeof`, spaces around `=` and `in`, a point
before a member and brackets around arguments. If the names are plain, the words can be told from
the characters (`words_inj`) : a word ends at a delimiter, an argument at a comma or a bracket, and
the character there says what follows. With that, two expressions have the same characters if and
only if their words read alike (`chars_eq_iff`).
-/

namespace Dynascript.Script

/-! ## The characters of words -/

def UnaryOp.word : UnaryOp → String
  | delete => "delete"
  | typeof => "typeof"

/-- The characters that end a word. -/
def delimiters : List Char := [' ', '.', '[', ']', ',']

/-- The name is not empty, has no delimiter in it and is no operator. -/
def plainName (n : String) : Bool :=
  n.toList ≠ [] && n.toList.all (· ∉ delimiters) && n ≠ "delete" && n ≠ "typeof"

mutual

def Words.chars : Words → List Char
  | .op op rest => op.word.toList ++ ' ' :: rest.chars
  | .name n rest => n.toList ++ rest.chars

def Rest.chars : Rest → List Char
  | .done => []
  | .member n rest => '.' :: (n.toList ++ rest.chars)
  | .element args rest => '[' :: (Words.charsAll args ++ ']' :: rest.chars)
  | .assign rest => ' ' :: '=' :: ' ' :: rest.chars
  | .isIn rest => ' ' :: 'i' :: 'n' :: ' ' :: rest.chars

/-- Arguments with commas between them. -/
def Words.charsAll : List Words → List Char
  | [] => []
  | w :: ws => w.chars ++ Words.charsMore ws

def Words.charsMore : List Words → List Char
  | [] => []
  | w :: ws => ',' :: ' ' :: (w.chars ++ Words.charsMore ws)

end

mutual

/-- All names are plain. -/
def Words.plain : Words → Bool
  | .op _ rest => rest.plain
  | .name n rest => plainName n && rest.plain

def Rest.plain : Rest → Bool
  | .done => true
  | .member n rest => plainName n && rest.plain
  | .element args rest => Words.allPlain args && rest.plain
  | .assign rest | .isIn rest => rest.plain

def Words.allPlain : List Words → Bool
  | [] => true
  | w :: ws => w.plain && Words.allPlain ws

end

/-! ## Words are told from their characters -/

theorem plainName_iff {n : String} :
    plainName n = true ↔
      n.toList ≠ [] ∧ (∀ c ∈ n.toList, c ∉ delimiters) ∧ ∀ op : UnaryOp, n ≠ op.word := by
  have hops : (∀ op : UnaryOp, n ≠ op.word) ↔ n ≠ "delete" ∧ n ≠ "typeof" :=
    ⟨fun h => ⟨h .delete, h .typeof⟩, fun h op => by cases op <;> [exact h.1; exact h.2]⟩
  simp only [plainName, Bool.and_eq_true, decide_eq_true_eq, List.all_eq_true, hops, and_assoc]

theorem word_injective {op op' : UnaryOp} (h : op.word = op'.word) : op = op' := by
  revert h
  cases op <;> cases op' <;> decide

theorem word_not_mem_delimiters (op : UnaryOp) : ∀ c ∈ op.word.toList, c ∉ delimiters := by
  have hall : op.word.toList.all (· ∉ delimiters) = true := by cases op <;> rfl
  simpa only [List.all_eq_true, decide_eq_true_eq] using hall

/-- The text has ended, or the argument has. -/
def Ends (s : List Char) : Prop := ∀ c ∈ s.head?, c = ',' ∨ c = ']'

/-- A word ends here. -/
def WordEnds (s : List Char) : Prop := ∀ c ∈ s.head?, c ∈ delimiters

theorem wordEnds_space (s : List Char) : WordEnds (' ' :: s) := by
  rintro c ⟨⟩
  decide

theorem wordEnds_rest (k : Rest) {s : List Char} (hs : Ends s) : WordEnds (k.chars ++ s) := by
  intro c hc
  cases k with
  | done => rcases hs c hc with rfl | rfl <;> decide
  | member | element | assign | isIn =>
    cases hc
    decide

theorem ends_more (ws : List Words) (s : List Char) : Ends (Words.charsMore ws ++ ']' :: s) := by
  cases ws with
  | nil => exact fun c hc => .inr (Option.some.inj hc).symm
  | cons w ws => exact fun c hc => .inl (Option.some.inj hc).symm

/-- Text splits at the end of its first word in one way. -/
theorem word_inj :
    ∀ {n n' s s' : List Char}, (∀ c ∈ n, c ∉ delimiters) → (∀ c ∈ n', c ∉ delimiters) →
      WordEnds s → WordEnds s' → n ++ s = n' ++ s' → n = n' ∧ s = s'
  | [], [], _, _, _, _, _, _, h => ⟨rfl, h⟩
  | [], c :: n', s, s', _, hn', hs, _, h => by
    rw [List.nil_append, List.cons_append] at h
    subst h
    exact absurd (hs c rfl) (hn' c List.mem_cons_self)
  | c :: n, [], s, s', hn, _, _, hs', h => by
    rw [List.nil_append, List.cons_append] at h
    subst h
    exact absurd (hs' c rfl) (hn c List.mem_cons_self)
  | c :: n, c' :: n', s, s', hn, hn', hs, hs', h => by
    obtain ⟨rfl, htail⟩ := List.cons.inj h
    obtain ⟨rfl, rfl⟩ := word_inj (fun c hc => hn c (List.mem_cons_of_mem _ hc))
      (fun c hc => hn' c (List.mem_cons_of_mem _ hc)) hs hs' htail
    exact ⟨rfl, rfl⟩

theorem name_inj {n n' : String} {k k' : Rest} {s s' : List Char} (hn : plainName n = true)
    (hn' : plainName n' = true) (hs : Ends s) (hs' : Ends s')
    (h : n.toList ++ (k.chars ++ s) = n'.toList ++ (k'.chars ++ s')) :
    n = n' ∧ k.chars ++ s = k'.chars ++ s' := by
  obtain ⟨-, hn, -⟩ := plainName_iff.1 hn
  obtain ⟨-, hn', -⟩ := plainName_iff.1 hn'
  obtain ⟨hnames, h⟩ := word_inj hn hn' (wordEnds_rest k hs) (wordEnds_rest k' hs') h
  exact ⟨String.toList_inj.1 hnames, h⟩

/-- An operator is no name. -/
theorem op_ne_name {op : UnaryOp} {n : String} {k : Rest} {s s' : List Char}
    (hn : plainName n = true) (hs' : Ends s') :
    op.word.toList ++ ' ' :: s ≠ n.toList ++ (k.chars ++ s') := by
  intro h
  obtain ⟨-, hn, hop⟩ := plainName_iff.1 hn
  obtain ⟨hword, -⟩ := word_inj (word_not_mem_delimiters op) hn (wordEnds_space s)
    (wordEnds_rest k hs') h
  exact hop op (String.toList_inj.1 hword).symm

/-- Where the text ends, no words follow. -/
theorem eq_done_of_ends {k : Rest} {s s' : List Char} (hs : Ends s) (h : s = k.chars ++ s') :
    k = .done := by
  subst h
  cases k with
  | done => rfl
  | member | element | assign | isIn => rcases hs _ rfl with h | h <;> cases h

/-- Words start with no delimiter, so a bracket is none of them. -/
theorem chars_ne_bracket {w : Words} (hw : w.plain = true) {s s' : List Char} :
    w.chars ++ s ≠ ']' :: s' := by
  intro h
  cases w with
  | op op rest => cases op <;> cases h
  | name n rest =>
    obtain ⟨hne, hn, -⟩ := plainName_iff.1 (Bool.and_eq_true_iff.1 hw).1
    obtain ⟨c, cs, hcs⟩ := List.exists_cons_of_ne_nil hne
    simp only [Words.chars, hcs, List.cons_append, List.cons.injEq] at h
    rw [hcs, h.1] at hn
    exact hn ']' List.mem_cons_self (by decide)

mutual

/-- Words with plain names are told from the text that starts with them. -/
theorem words_inj :
    ∀ {w w' : Words} {s s' : List Char}, w.plain = true → w'.plain = true → Ends s → Ends s' →
      w.chars ++ s = w'.chars ++ s' → w = w' ∧ s = s'
  | .op op rest, w', s, s', hw, hw', hs, hs', h => by
    rw [Words.chars, List.append_assoc] at h
    cases w' with
    | name n rest' =>
      rw [Words.chars, List.append_assoc] at h
      exact absurd h (op_ne_name (Bool.and_eq_true_iff.1 hw').1 hs')
    | op op' rest' =>
      rw [Words.chars, List.append_assoc] at h
      obtain ⟨hop, htail⟩ := word_inj (word_not_mem_delimiters op) (word_not_mem_delimiters op')
        (wordEnds_space _) (wordEnds_space _) h
      obtain rfl := word_injective (String.toList_inj.1 hop)
      have hrest' : rest'.plain = true := hw'
      obtain ⟨rfl, rfl⟩ := words_inj (w := rest) hw hrest' hs hs' (List.cons.inj htail).2
      exact ⟨rfl, rfl⟩
  | .name n rest, w', s, s', hw, hw', hs, hs', h => by
    obtain ⟨hn, hrest⟩ := Bool.and_eq_true_iff.1 hw
    rw [Words.chars, List.append_assoc] at h
    cases w' with
    | op op rest' =>
      rw [Words.chars, List.append_assoc] at h
      exact absurd h.symm (op_ne_name hn hs)
    | name n' rest' =>
      obtain ⟨hn', hrest'⟩ := Bool.and_eq_true_iff.1 hw'
      rw [Words.chars, List.append_assoc] at h
      obtain ⟨rfl, htail⟩ := name_inj hn hn' hs hs' h
      obtain ⟨rfl, rfl⟩ := rest_inj hrest hrest' hs hs' htail
      exact ⟨rfl, rfl⟩

theorem rest_inj :
    ∀ {k k' : Rest} {s s' : List Char}, k.plain = true → k'.plain = true → Ends s → Ends s' →
      k.chars ++ s = k'.chars ++ s' → k = k' ∧ s = s'
  | .done, k', s, s', _, _, hs, _, h => by
    obtain rfl := eq_done_of_ends hs h
    exact ⟨rfl, h⟩
  | .member n rest, k', s, s', hk, hk', hs, hs', h => by
    obtain ⟨hn, hrest⟩ := Bool.and_eq_true_iff.1 hk
    cases k' with
    | done => cases eq_done_of_ends hs' h.symm
    | element | assign | isIn => cases h
    | member n' rest' =>
      obtain ⟨hn', hrest'⟩ := Bool.and_eq_true_iff.1 hk'
      simp only [Rest.chars, List.cons_append, List.append_assoc, List.cons.injEq, true_and] at h
      obtain ⟨rfl, htail⟩ := name_inj hn hn' hs hs' h
      obtain ⟨rfl, rfl⟩ := rest_inj hrest hrest' hs hs' htail
      exact ⟨rfl, rfl⟩
  | .element args rest, k', s, s', hk, hk', hs, hs', h => by
    obtain ⟨hargs, hrest⟩ := Bool.and_eq_true_iff.1 hk
    cases k' with
    | done => cases eq_done_of_ends hs' h.symm
    | member | assign | isIn => cases h
    | element args' rest' =>
      obtain ⟨hargs', hrest'⟩ := Bool.and_eq_true_iff.1 hk'
      simp only [Rest.chars, List.cons_append, List.append_assoc, List.cons.injEq, true_and] at h
      obtain ⟨rfl, htail⟩ := args_inj hargs hargs' h
      obtain ⟨rfl, rfl⟩ := rest_inj hrest hrest' hs hs' htail
      exact ⟨rfl, rfl⟩
  | .assign rest, k', s, s', hk, hk', hs, hs', h => by
    cases k' with
    | done => cases eq_done_of_ends hs' h.symm
    | member | element | isIn => cases h
    | assign rest' =>
      simp only [Rest.chars, List.cons_append, List.cons.injEq, true_and] at h
      obtain ⟨rfl, rfl⟩ := words_inj (w := rest) hk hk' hs hs' h
      exact ⟨rfl, rfl⟩
  | .isIn rest, k', s, s', hk, hk', hs, hs', h => by
    cases k' with
    | done => cases eq_done_of_ends hs' h.symm
    | member | element | assign => cases h
    | isIn rest' =>
      simp only [Rest.chars, List.cons_append, List.cons.injEq, true_and] at h
      obtain ⟨rfl, rfl⟩ := words_inj (w := rest) hk hk' hs hs' h
      exact ⟨rfl, rfl⟩

theorem args_inj :
    ∀ {ws ws' : List Words} {s s' : List Char}, Words.allPlain ws = true →
      Words.allPlain ws' = true →
      Words.charsAll ws ++ ']' :: s = Words.charsAll ws' ++ ']' :: s' → ws = ws' ∧ s = s'
  | [], [], _, _, _, _, h => ⟨rfl, (List.cons.inj h).2⟩
  | [], w :: ws, s, s', _, hws', h => by
    rw [Words.charsAll, Words.charsAll, List.append_assoc] at h
    exact absurd h.symm (chars_ne_bracket (Bool.and_eq_true_iff.1 hws').1)
  | w :: ws, [], s, s', hws, _, h => by
    rw [Words.charsAll, Words.charsAll, List.append_assoc] at h
    exact absurd h (chars_ne_bracket (Bool.and_eq_true_iff.1 hws).1)
  | w :: ws, w' :: ws', s, s', hws, hws', h => by
    obtain ⟨hw, hmore⟩ := Bool.and_eq_true_iff.1 hws
    obtain ⟨hw', hmore'⟩ := Bool.and_eq_true_iff.1 hws'
    rw [Words.charsAll, Words.charsAll, List.append_assoc, List.append_assoc] at h
    obtain ⟨rfl, htail⟩ := words_inj hw hw' (ends_more ws s) (ends_more ws' s') h
    obtain ⟨rfl, rfl⟩ := more_inj hmore hmore' htail
    exact ⟨rfl, rfl⟩

theorem more_inj :
    ∀ {ws ws' : List Words} {s s' : List Char}, Words.allPlain ws = true →
      Words.allPlain ws' = true →
      Words.charsMore ws ++ ']' :: s = Words.charsMore ws' ++ ']' :: s' → ws = ws' ∧ s = s'
  | [], [], _, _, _, _, h => ⟨rfl, (List.cons.inj h).2⟩
  | [], _ :: _, _, _, _, _, h | _ :: _, [], _, _, _, _, h => by cases h
  | w :: ws, w' :: ws', s, s', hws, hws', h => by
    obtain ⟨hw, hmore⟩ := Bool.and_eq_true_iff.1 hws
    obtain ⟨hw', hmore'⟩ := Bool.and_eq_true_iff.1 hws'
    simp only [Words.charsMore, List.cons_append, List.append_assoc, List.cons.injEq,
      true_and] at h
    obtain ⟨rfl, htail⟩ := words_inj hw hw' (ends_more ws s) (ends_more ws' s') h
    obtain ⟨rfl, rfl⟩ := more_inj hmore hmore' htail
    exact ⟨rfl, rfl⟩

end

/-! ## The characters of an expression -/

namespace Phrase

mutual

/-- All names are plain, and those that stand alone are local variables. -/
def spelled (scopes : Scopes) : Phrase → Bool
  | name n => plainName n && scopes.declares n
  | member target n => plainName n && target.spelled scopes
  | element target args => target.spelled scopes && allSpelled scopes args
  | assign target value => target.spelled scopes && value.spelled scopes
  | unary _ operand => operand.spelled scopes
  | isIn key container => key.spelled scopes && container.spelled scopes

def allSpelled (scopes : Scopes) : List Phrase → Bool
  | [] => true
  | t :: ts => t.spelled scopes && allSpelled scopes ts

end

mutual

theorem plain_words {scopes : Scopes} :
    ∀ {t : Phrase} {k : Rest}, t.spelled scopes = true → k.plain = true →
      (t.words k).plain = true
  | name n, k, ht, hk => Bool.and_eq_true_iff.2 ⟨(Bool.and_eq_true_iff.1 ht).1, hk⟩
  | member target n, k, ht, hk => by
    obtain ⟨hn, ht⟩ := Bool.and_eq_true_iff.1 ht
    exact plain_words (t := target) ht (Bool.and_eq_true_iff.2 ⟨hn, hk⟩)
  | element target args, k, ht, hk => by
    obtain ⟨ht, hargs⟩ := Bool.and_eq_true_iff.1 ht
    exact plain_words (t := target) ht (Bool.and_eq_true_iff.2 ⟨allPlain_words hargs, hk⟩)
  | assign target value, k, ht, hk => by
    obtain ⟨ht, hv⟩ := Bool.and_eq_true_iff.1 ht
    exact plain_words (t := target) ht (plain_words (t := value) hv hk)
  | unary op operand, k, ht, hk => plain_words (t := operand) ht hk
  | isIn key container, k, ht, hk => by
    obtain ⟨hkey, hc⟩ := Bool.and_eq_true_iff.1 ht
    exact plain_words (t := key) hkey (plain_words (t := container) hc hk)

theorem allPlain_words {scopes : Scopes} :
    ∀ {ts : List Phrase}, allSpelled scopes ts = true → Words.allPlain (wordsAll ts) = true
  | [], _ => rfl
  | t :: ts, h => by
    obtain ⟨ht, hts⟩ := Bool.and_eq_true_iff.1 h
    exact Bool.and_eq_true_iff.2 ⟨plain_words ht rfl, allPlain_words hts⟩

end

def chars (t : Phrase) : List Char := (t.words .done).chars

/-- What follows an expression comes after its characters. -/
theorem chars_words : ∀ (t : Phrase) (k : Rest), (t.words k).chars = t.chars ++ k.chars
  | name n, k => by simp [chars, words, Words.chars, Rest.chars]
  | member target n, k | element target args, k => by
    rw [chars, words, words, chars_words target, chars_words target]
    simp [Rest.chars]
  | assign target value, k => by
    rw [chars, words, words, chars_words target, chars_words target]
    simp [Rest.chars, chars_words value k, chars]
  | unary op operand, k => by
    rw [chars, words, words, Words.chars, Words.chars, chars_words operand k]
    simp [chars]
  | isIn key container, k => by
    rw [chars, words, words, chars_words key, chars_words key]
    simp [Rest.chars, chars_words container k, chars]

@[simp]
theorem chars_member (target : Phrase) (n : String) :
    (member target n).chars = target.chars ++ '.' :: n.toList := by
  rw [chars, words, chars_words]
  simp [Rest.chars]

@[simp]
theorem chars_element (target : Phrase) (args : List Phrase) :
    (element target args).chars =
      target.chars ++ '[' :: (Words.charsAll (wordsAll args) ++ [']']) := by
  rw [chars, words, chars_words]
  rfl

@[simp]
theorem chars_assign (target value : Phrase) :
    (assign target value).chars = target.chars ++ ' ' :: '=' :: ' ' :: value.chars := by
  rw [chars, words, chars_words]
  rfl

@[simp]
theorem chars_isIn (key container : Phrase) :
    (isIn key container).chars = key.chars ++ ' ' :: 'i' :: 'n' :: ' ' :: container.chars := by
  rw [chars, words, chars_words]
  rfl

/-- Of expressions with plain names, the characters tell what their words read as. -/
theorem chars_eq_iff {scopes : Scopes} {t t' : Phrase} (ht : t.spelled scopes = true)
    (ht' : t'.spelled scopes = true) : t.chars = t'.chars ↔ t.regroup = t'.regroup := by
  rw [regroup_eq_regroup]
  constructor
  · intro h
    have hend : Ends [] := nofun
    exact (words_inj (plain_words ht rfl) (plain_words ht' rfl) hend hend
      (congrArg (· ++ []) h)).1
  · intro h
    rw [chars, h, chars]

end Phrase

end Dynascript.Script
