import Dynascript.Diagnostic.Log
import Dynascript.Proofs.Text.Substitution
import Mathlib.Data.List.Infix

/-!
# Arguments of diagnostics

The text of a diagnostic is its message's template, filled with the arguments one after the other.
A reader expects to see them as they are. One argument is always shown so, but the text of the first
of two can bring about a place for the second, which is then filled as well.

In the messages every place stands between quotes (`Message.quoted`), which are in no place. So an
argument brings about a place only if it holds it as a whole, and not together with the text around
it (`occurrences_update`).
-/

namespace Dynascript

namespace Template

variable {first x : Char} {tail : List Char}

/-- Every place stands between quotes. -/
def quoted : List Part → Bool
  | [] => true
  | .char '\x27' :: .place _ :: .char '\x27' :: rest => quoted rest
  | .char _ :: rest => quoted rest
  | .place _ :: _ => false

/-- A character that the pattern does not have keeps the occurrences on both sides apart. -/
theorem occurrences_apart (hx : x ∉ first :: tail) (u w : List Char) :
    occurrences (first :: tail) (u ++ x :: w) =
      occurrences (first :: tail) u + occurrences (first :: tail) w := by
  obtain ⟨hne, htail⟩ := List.ne_and_not_mem_of_not_mem_cons hx
  have hx : first ∉ [x] := by simpa using hne.symm
  rw [occurrences_cut htail]
  exact congrArg _ (occurrences_append_of_not_mem hx w)

/-- Between quotes, another value for a place changes the number of occurrences by those in it. -/
theorem occurrences_update (hquote : '\x27' ∉ first :: tail) (value : Nat → List Char) (i : Nat)
    (new : List Char) {ps : List Part} (hps : quoted ps = true) (u : List Char) :
    occurrences (first :: tail) (u ++ spell (Function.update value i new) ps) +
        ps.count (.place i) * occurrences (first :: tail) (value i) =
      occurrences (first :: tail) (u ++ spell value ps) +
        ps.count (.place i) * occurrences (first :: tail) new := by
  fun_induction quoted ps generalizing u with
  | case1 => simp
  | case2 k rest ih =>
    have hcut (v : Nat → List Char) :
        occurrences (first :: tail)
            (u ++ spell v (.char '\x27' :: .place k :: .char '\x27' :: rest)) =
          occurrences (first :: tail) u + (occurrences (first :: tail) (v k) +
            occurrences (first :: tail) (spell v rest)) := by
      rw [← occurrences_apart hquote, ← occurrences_apart hquote]
      rfl
    have hcount : (Part.char '\x27' :: .place k :: .char '\x27' :: rest).count (.place i) =
        rest.count (.place i) + if k = i then 1 else 0 := by
      simp [List.count_cons]
    have hrest := ih hps []
    rw [List.nil_append, List.nil_append] at hrest
    rw [hcut, hcut, hcount]
    split_ifs with hk
    · subst hk
      rw [Function.update_self, Nat.succ_mul, Nat.succ_mul]
      omega
    · rw [Function.update_of_ne hk, Nat.add_zero]
      omega
  | case3 c rest _ ih =>
    have hrest := ih hps (u ++ [c])
    rw [List.append_assoc, List.append_assoc] at hrest
    rwa [List.count_cons_of_ne (by simp)]
  | case4 => simp at hps

end Template

open Template

/-- In every message the places stand between quotes. -/
theorem Message.quoted (message : Message) :
    Template.quoted (parts 1 message.template.toList) = true := by
  -- A literal gives up its characters as a list, without a look at its bytes.
  cases message <;>
    exact (congrArg (fun text => Template.quoted (parts 1 text)) String.toList_ofList).trans rfl

namespace Diagnostic

/-- The first argument adds to the places of the message those that it holds. -/
theorem occurrences_first (message : Message) (a : String) :
    occurrences (place 1) (substitute message.template [a]).toList =
      occurrences (place 1) message.template.toList +
        occurrences (place 0) message.template.toList * occurrences (place 1) a.toList := by
  have hquote : '\x27' ∉ '\x7b' :: placeRest 1 := by decide
  have hother : occurrences (place 1) (place 0) = 0 := by decide
  have hshown : shown [a] = Function.update place 0 a.toList := by
    have hnone : shown [] = place := funext fun i => shown_of_le i.zero_le
    rw [← hnone]
    exact shown_concat [] a
  have hupdate := occurrences_update hquote place 0 a.toList message.quoted []
  rw [List.nil_append, List.nil_append, spell_parts, count_parts Nat.zero_lt_one, ← place_eq,
    hother, Nat.mul_zero] at hupdate
  rw [substitute, String.toList_ofList, hshown]
  exact hupdate

/-- Two arguments are shown as they are, unless the message shows the first and that one holds the
place of the second. -/
theorem text_two_iff (message : Message) (loc : Location) (a b : String) :
    (ofMessage message loc [a, b]).text = substitute message.template [a, b] ↔
      b.toList = place 1 ∨ ¬ (place 0 <:+: message.template.toList ∧ place 1 <:+: a.toList) := by
  have hzero (i : Nat) (text : List Char) :
      ¬ place i <:+: text ↔ occurrences (place i) text = 0 := occurrences_eq_zero.symm
  refine (fill_concat_eq_iff (fill_one message.template a)).trans (or_congr_right ?_)
  rw [not_and_or, hzero, hzero, ← Nat.mul_eq_zero, List.length_singleton, occurrences_first]
  omega

end Diagnostic

/-- Filling a template with any first part of its arguments shows them as they are exactly if each
argument finds no place but the template's own, and none that those before it have brought about, or
is its place itself. This is about all first parts together : the whole list alone may be shown as
it is although a first part is not, if a later argument puts right what an earlier one has spoilt.
In a message one argument is always shown as it is, and two are unless the message shows the first
and that one holds the place of the second. This is about these arguments and no first parts. -/
theorem arguments_verbatim_iff (template : String) (args : List String) :
    ((∀ front, front <+: args → fill template front = substitute template front) ↔
      ∀ front arg, front ++ [arg] <+: args → arg.toList = place front.length ∨
        occurrences (place front.length) (substitute template front).toList =
          occurrences (place front.length) template.toList) ∧
    ∀ (message : Message) (loc : Location) (a b : String),
      (Diagnostic.ofMessage message loc [a]).text = substitute message.template [a] ∧
        ((Diagnostic.ofMessage message loc [a, b]).text = substitute message.template [a, b] ↔
          b.toList = place 1 ∨
            ¬ (place 0 <:+: message.template.toList ∧ place 1 <:+: a.toList)) :=
  ⟨fill_eq_substitute_iff template args, fun message loc a b =>
    ⟨fill_one message.template a, Diagnostic.text_two_iff message loc a b⟩⟩

/-- A type of the name `{1}` is shown by the name of the member that it lacks : the second argument
finds its place twice. -/
theorem type_shown_as_member :
    let template := Message.noSuchMember.template
    let args := ["\x7b1\x7d", "bar"]
    let d := Diagnostic.ofMessage .noSuchMember .origin args
    d.text = "'bar' does not contain a definition for 'bar'." ∧
      substitute template args = "'\x7b1\x7d' does not contain a definition for 'bar'." ∧
      occurrences (place 1) (substitute template (args.take 1)).toList = 2 ∧
      occurrences (place 1) template.toList = 1 ∧
      (¬ ∀ front, front <+: args → fill template front = substitute template front) ∧
      d.text ≠ substitute template args := by
  intro template args d
  obtain ⟨hsteps, hmessages⟩ := arguments_verbatim_iff template args
  have htwice : occurrences (place 1) (substitute template (args.take 1)).toList = 2 := by decide
  have honce : occurrences (place 1) template.toList = 1 := by decide
  have hbar : "bar".toList ≠ place 1 := by decide
  refine ⟨by decide, by decide, htwice, honce, fun hall => ?_, fun htext => ?_⟩
  · rcases hsteps.1 hall (args.take 1) "bar" List.prefix_rfl with h | h
    · exact hbar h
    · exact absurd (htwice.symm.trans (h.trans honce)) (by decide)
  · have hholds : place 0 <:+: template.toList ∧ place 1 <:+: "\x7b1\x7d".toList := by decide
    exact ((hmessages .noSuchMember .origin _ _).2.1 htext).elim hbar (absurd hholds)

end Dynascript
