import Dynascript.Script.Writer

/-!
# The depth of the script writer

A block raises the depth for its body, which can be stopped at any statement in it, however deep.
Taking over what an emission wrote goes piece by piece as well (`take_append`), and it comes to the
same whether the depth is raised meanwhile or not (`take_enter`). So a statement that is put piece
by piece leaves the writer that takes over its text as a whole (`put_eq_stmt`) : with the depth that
it found, whether it was stopped or not.

What a writer appends for a statement then depends on its depth alone, and not on what was written,
or given up half-way, before (`statements_undisturbed`).
-/

namespace Dynascript.Script.Writer

variable {r : Registry}

/-! ## Taking over piece by piece -/

theorem take_append (w : Writer) (a b : Emission Write) :
    w.take (a ++ b) = andThen (w.take a) (·.take b) := by
  obtain ⟨written, stop⟩ := a
  change w.take (Emission.append ⟨written, stop⟩ b) = _
  cases stop with
  | none => simp [Emission.append, take, andThen, Buffer.writeAll]
  | some stop => rfl

theorem andThen_congr {done : Option Stop × Writer} {f g : Writer → Option Stop × Writer}
    (h : f done.2 = g done.2) : andThen done f = andThen done g := by
  obtain ⟨stop, w⟩ := done
  cases stop with
  | none => exact h
  | some stop => rfl

theorem andThen_assoc (done : Option Stop × Writer) (f g : Writer → Option Stop × Writer) :
    andThen (andThen done f) g = andThen done fun w => andThen (f w) g := by
  obtain ⟨stop, w⟩ := done
  cases stop <;> rfl

/-- Taking over leaves the depth alone, so it may as well be another one meanwhile. -/
theorem take_enter (w : Writer) (em : Emission Write) :
    ((w.enter.take em).1, (w.enter.take em).2.leave) = w.take em := rfl

/-! ## Statements -/

mutual

/-- Piece by piece or as a whole, a statement leaves the same writer. -/
theorem put_eq_stmt (w : Writer) : ∀ s : TypedStmt, w.put r s = w.stmt r s
  | .declare loc name _ none => by
    rw [put, stmt, stmtText, take_append]
    rfl
  | .declare loc name _ (some value) => by
    rw [put, stmt, stmtText, take_append, take_append, take_append]
    rfl
  | .expr loc e => by
    rw [put, stmt, stmtText, take_append, take_append]
    rfl
  | .nonAssign loc e => by
    rw [put, stmt, stmtText]
    split
    · rfl
    · rw [take_append, take_append]
      rfl
  | .block loc body => by
    let opened := (w.indent loc).write loc ["\x7b\n"]
    rw [put, putAll_eq]
    refine (congrArg (andThen · _) (take_enter opened _)).trans ?_
    rw [stmt, stmtText, take_append, take_append, take_append, take_append, andThen_assoc]
    exact andThen_congr rfl
  | .localFunction .. | .useNamespace .. => rfl

theorem putAll_eq (w : Writer) :
    ∀ body : List TypedStmt, w.putAll r body = w.take (unitText r w.depth body)
  | [] => rfl
  | s :: rest => by
    rw [putAll, unitText, take_append, put_eq_stmt w s]
    -- The statement has left the depth of `w`, at which the rest is written.
    exact andThen_congr (putAll_eq (w.stmt r s).2 rest)

end

theorem depth_put (w : Writer) (s : TypedStmt) : (w.put r s).2.depth = w.depth := by
  rw [put_eq_stmt]
  rfl

theorem stop_put (w : Writer) (s : TypedStmt) :
    (w.put r s).1 = (stmtText r w.depth s).stop := by
  rw [put_eq_stmt]
  rfl

theorem text_writeAll (b : Buffer) (ws : List Write) :
    (b.writeAll ws).text = b.text ++ (Buffer.empty.writeAll ws).text := by
  rw [← String.toList_inj, String.toList_append, b.toList_writeAll, Buffer.empty.toList_writeAll]
  rfl

theorem text_put (w : Writer) (s : TypedStmt) :
    (w.put r s).2.buffer.text =
      w.buffer.text ++ (Buffer.empty.writeAll (stmtText r w.depth s).written).text := by
  rw [put_eq_stmt]
  exact text_writeAll ..

/-! ## Statement after statement -/

/-- The writer after one more statement, whether it was stopped or not. -/
def after (r : Registry) (w : Writer) (s : TypedStmt) : Writer := (w.put r s).2

theorem depth_afterAll (w : Writer) (before : List TypedStmt) :
    (before.foldl (after r) w).depth = w.depth := by
  induction before generalizing w with
  | nil => rfl
  | cons s before ih => exact (ih (w.after r s)).trans (w.depth_put s)

/-- A statement leaves the depth as it was, whether it is stopped or not, and the stop and the text
that is appended are those of the statement at this depth. So after any statements, those stopped
half-way among them, the next one is stopped where it is in a new writer of the same depth, and
appends what that one writes. -/
theorem statements_undisturbed (r : Registry) :
    (∀ (w : Writer) (s : TypedStmt),
      (w.put r s).2.depth = w.depth ∧
        (w.put r s).1 = (stmtText r w.depth s).stop ∧
        (w.put r s).2.buffer.text =
          w.buffer.text ++ (Buffer.empty.writeAll (stmtText r w.depth s).written).text) ∧
    ∀ (w : Writer) (before : List TypedStmt) (s : TypedStmt),
      let later := before.foldl (after r) w
      let fresh : Writer := { depth := w.depth }
      (later.put r s).1 = (fresh.put r s).1 ∧
        (later.put r s).2.buffer.text = later.buffer.text ++ (fresh.put r s).2.buffer.text := by
  refine ⟨fun w s => ⟨w.depth_put s, w.stop_put s, w.text_put s⟩, fun w before s => ?_⟩
  intro later fresh
  have hdepth : later.depth = fresh.depth := w.depth_afterAll before
  have hfresh : fresh.buffer.text = "" := rfl
  rw [stop_put, stop_put, text_put, text_put, hdepth, hfresh, String.empty_append]
  exact ⟨rfl, rfl⟩

/-- A cast two blocks deep stops both of them, and the next statement is written as ever. -/
example (r : Registry) (t : TypeId) :
    let x : TypedExpr := .localVar ⟨t, .place, .origin⟩ "x"
    let cast : TypedStmt := .expr .origin (.cast (.value t .origin) x)
    let w := Writer.after r {} (.block .origin [.block .origin [cast], .expr .origin x])
    w.depth = 0 ∧ w.buffer.text = "\t\x7b\n\t\t\x7b\n\t\t\t" ∧
      (w.put r (.expr .origin x)).2.buffer.text = w.buffer.text ++ "\tx;\n" :=
  ⟨rfl, rfl, rfl⟩

end Dynascript.Script.Writer
