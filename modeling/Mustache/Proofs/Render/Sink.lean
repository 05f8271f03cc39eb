import Mustache.Render.Execute

/-!
# Writing piece by piece

A sink does not show how its bytes were cut: writing two texts one after the other and writing
both at once leave the same bytes and fail alike, whatever room is left. So writing a value
escaped, which is done piece by piece, is writing its escaped bytes at once.
-/

namespace Mustache

namespace Sink

/-- Writing no bytes changes nothing and succeeds. -/
theorem write_empty (sink : Sink) : sink.write .empty = (true, sink) := by
  obtain ⟨written, _ | room⟩ := sink
  · simp [write]
  · have nothing : ByteArray.empty.extract 0 room = .empty := by
      rw [ByteArray.extract_eq_empty_iff, ByteArray.size_empty]
      exact Nat.min_le_right _ _
    simp [write, nothing]

/-- A sink without a limit takes everything that `write` is given. -/
theorem write_of_unlimited {sink : Sink} (unlimited : sink.room = none) (bytes : ByteArray) :
    sink.write bytes = (true, ⟨sink.written ++ bytes, none⟩) := by
  obtain ⟨written, room⟩ := sink
  subst unlimited
  rfl

/-- When the first of two texts fits, to `write` both at once is to write the second after it. -/
theorem write_append_of_fits {sink : Sink} {first second : ByteArray} {after : Sink}
    (fits : sink.write first = (true, after)) :
    sink.write (first ++ second) = after.write second := by
  obtain ⟨written, _ | room⟩ := sink
  · simp only [write, Prod.mk.injEq, true_and] at fits
    subst fits
    simp [write, ByteArray.append_assoc]
  · simp only [write, Prod.mk.injEq, decide_eq_true_eq] at fits
    obtain ⟨enough, rfl⟩ := fits
    have whole : first.extract 0 room = first := by
      rw [← Nat.max_eq_left enough, ByteArray.extract_zero_max_size]
    have both : (first ++ second).extract 0 room =
        first ++ second.extract 0 (room - first.size) := by
      rw [ByteArray.extract_append, whole, Nat.zero_sub]
    have leftOver : room - (first ++ second).size = room - first.size - second.size := by
      rw [ByteArray.size_append, Nat.sub_sub]
    simp only [write, both, whole, leftOver, ByteArray.append_assoc, Prod.mk.injEq, and_true]
    rw [decide_eq_decide, ByteArray.size_append]
    omega

/-- When the first of two texts does not fit, the second does not matter to `write`. -/
theorem write_append_of_fails {sink : Sink} {first second : ByteArray} {after : Sink}
    (fails : sink.write first = (false, after)) :
    sink.write (first ++ second) = (false, after) := by
  obtain ⟨written, _ | room⟩ := sink
  · simp [write] at fails
  · simp only [write, Prod.mk.injEq, decide_eq_false_iff_not] at fails
    obtain ⟨tooLong, rfl⟩ := fails
    have onlyFirst : (first ++ second).extract 0 room = first.extract 0 room := by
      rw [ByteArray.extract_append, Nat.zero_sub, Nat.sub_eq_zero_of_le (by omega),
        ByteArray.extract_same, ByteArray.append_empty]
    simp only [write, onlyFirst, ByteArray.size_append, Prod.mk.injEq, decide_eq_false_iff_not]
    refine ⟨by omega, ?_⟩
    congr 2
    omega

end Sink

namespace Escape

/-- The bytes of chunks one after another. -/
def joined (chunks : List ByteArray) : ByteArray :=
  chunks.foldr (· ++ ·) .empty

theorem joined_cons (chunk : ByteArray) (rest : List ByteArray) :
    joined (chunk :: rest) = chunk ++ joined rest :=
  rfl

/-- The `piecesAfter` plain bytes make up these and what is written for the others. -/
theorem joined_piecesAfter (plain : ByteArray) (bytes : List UInt8) :
    joined (piecesAfter plain bytes) = plain ++ ⟨(bytes.flatMap escapeByte).toArray⟩ := by
  induction bytes generalizing plain with
  | nil => rfl
  | cons byte rest inductionHypothesis =>
    rw [piecesAfter, List.flatMap_cons, escapeByte]
    cases entity? byte.toNat with
    | some entity =>
      simp only [joined_cons, inductionHypothesis]
      rw [ByteArray.empty_append, ByteArray.ext_iff, ByteArray.data_append, ByteArray.data_append,
        ByteArray.data_append, ← List.append_toArray, Array.toArray_toList]
    | none =>
      simp only [inductionHypothesis]
      rw [ByteArray.ext_iff, ByteArray.data_append, ByteArray.data_append]
      simp

/-- The `pieces` in which bytes are written make up what `escapeBytes` makes of them. -/
theorem joined_pieces (bytes : ByteArray) : joined (pieces bytes) = escapeBytes bytes := by
  rw [pieces, joined_piecesAfter, ByteArray.empty_append]
  rfl

end Escape

namespace Rendering

variable {σ : Type}

/-- Writing no bytes does nothing. -/
theorem write_empty : (write .empty : Rendering σ Unit) = pure () := by
  funext session
  rw [write, Sink.write_empty]
  rfl

/-- Two texts may be written by `write` at once or one after the other. -/
theorem write_append (first second : ByteArray) :
    (write (first ++ second) : Rendering σ Unit) = (do
      write first
      write second) := by
  funext session
  rcases cut : session.sink.write first with ⟨_ | _, after⟩
  · rw [write, Sink.write_append_of_fails cut]
    simp only [bind, ExceptT.bind, ExceptT.mk, StateT.bind, write, cut]
    rfl
  · rw [write, Sink.write_append_of_fits cut]
    simp only [bind, ExceptT.bind, ExceptT.mk, StateT.bind, write, cut]
    rfl

/-- To `write` chunks one after another is to write all of them at once. -/
theorem forM_write (chunks : List ByteArray) :
    (chunks.forM write : Rendering σ Unit) = write (Escape.joined chunks) := by
  induction chunks with
  | nil => exact write_empty.symm
  | cons chunk rest inductionHypothesis =>
    exact (congrArg (write chunk >>= fun _ => ·) inductionHypothesis).trans
      (write_append chunk (Escape.joined rest)).symm

/-- To `write` bytes escaped piece by piece is to write the escaped bytes at once. -/
theorem forM_write_pieces (bytes : ByteArray) :
    ((Escape.pieces bytes).forM write : Rendering σ Unit) = write (Escape.escapeBytes bytes) := by
  rw [forM_write, Escape.joined_pieces]

/-- To `emit` a value is to `write` its text at once, also if it is escaped. -/
theorem emit_eq_write (host : Host) (value : Value) (escaped : Bool) :
    (emit host value escaped : Rendering σ Unit) =
      match host.text value with
      | .error stall => throw (.stalled stall)
      | .ok text =>
        write (if escaped then Escape.escapeBytes text.toByteArray else text.toByteArray) := by
  unfold emit
  cases host.text value with
  | error => rfl
  | ok text =>
    cases escaped with
    | false => rfl
    | true => exact forM_write_pieces text.toByteArray

theorem write_keeps (bytes : ByteArray) (session : Session σ) :
    (write bytes session).2.accessors = session.accessors := by
  unfold write
  split <;> rfl

theorem emit_keeps (host : Host) (value : Value) (escaped : Bool) (session : Session σ) :
    (emit host value escaped session).2.accessors = session.accessors := by
  rw [emit_eq_write]
  cases host.text value with
  | error => rfl
  | ok text => exact write_keeps _ session

theorem load_keeps (loader : Loader σ) (name : String) (session : Session σ) :
    (load loader name session).2.accessors = session.accessors := by
  unfold load
  split <;> rfl

end Rendering

end Mustache
