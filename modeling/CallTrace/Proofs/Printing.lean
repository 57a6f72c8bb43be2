import CallTrace.Output

/-!
# What a sink takes of a program that prints

Two texts that are offered one after the other leave a sink as one text does that is made of
both (`writeText_append`), wherever the cut falls.  So all that a program offers is one text,
and it ends in its own way exactly if the sink takes the whole text (`Prints`).
-/

namespace CallTrace

namespace Sink

variable (sink : Sink)

theorem write_nil : sink.write [] = (true, sink) := by
  rcases sink with ⟨_ | room, taken, refusal⟩ <;> simp [write]

/-- A sink that refused a part of something takes nothing more. -/
theorem write_full {bytes : List UInt8} (h : (sink.write bytes).1 = false) (more : List UInt8) :
    ((sink.write bytes).2.write more).2 = (sink.write bytes).2 := by
  rcases sink with ⟨_ | room, taken, refusal⟩
  · cases h
  · have full : room - bytes.length = 0 := by
      have := of_decide_eq_false h
      omega
    simp [write, full]

theorem write_append (bytes more : List UInt8) :
    sink.write (bytes ++ more) =
      match sink.write bytes with
      | (true, sink) => sink.write more
      | (false, sink) => (false, sink) := by
  rcases sink with ⟨_ | room, taken, refusal⟩
  · simp [write]
  · simp only [write, List.length_append]
    by_cases fits : bytes.length ≤ room
    · have rest : bytes.length + more.length ≤ room ↔ more.length ≤ room - bytes.length := by
        omega
      simp [fits, rest, List.take_append, List.take_of_length_le fits, Nat.sub_sub]
    · have cut : ¬ bytes.length + more.length ≤ room := by omega
      have full : room - (bytes.length + more.length) = room - bytes.length := by omega
      have within : room ≤ bytes.length := by omega
      simp [fits, cut, full, List.take_append_of_le_length within]

theorem writeText_empty : sink.writeText "" = (true, sink) :=
  sink.write_nil

theorem writeText_append (text more : String) :
    sink.writeText (text ++ more) =
      match sink.writeText text with
      | (true, sink) => sink.writeText more
      | (false, sink) => (false, sink) := by
  have bytes : (text ++ more).toUTF8.data.toList =
      text.toUTF8.data.toList ++ more.toUTF8.data.toList := by
    simp [String.toUTF8]
  rw [writeText, bytes, write_append]
  rfl

end Sink

namespace Printing

variable {α β : Type}

/-- The program offers the text to its sink.  It ends with the result if the sink takes all of
    it, and otherwise with the refusal. -/
def Prints (m : Printing α) (text : String) (result : Except String α) : Prop :=
  ∀ sink : Sink, m.run.run sink =
    match sink.writeText text with
    | (true, sink) => (result, sink)
    | (false, sink) => (.error sink.refusal, sink)

theorem prints_ofExcept (result : Except String α) :
    Prints (ofExcept result : Printing α) "" result := by
  intro sink
  rw [Sink.writeText_empty]
  cases result <;> rfl

theorem prints_print (text : String) : Prints (print text) text (.ok ()) := by
  intro sink
  have asked : (modifyGet (Sink.writeText text) : Printing Bool).run.run sink =
      (.ok (sink.writeText text).1, (sink.writeText text).2) := rfl
  rw [print, offer, ExceptT.run_bind, StateT.run_bind, asked]
  generalize sink.writeText text = outcome
  obtain ⟨_ | _, left⟩ := outcome
  · rfl
  · rfl

variable {m : Printing α} {k : α → Printing β} {text more : String}

/-- A program goes on where another one has ended well. -/
theorem Prints.bind {x : α} {result : Except String β} (first : Prints m text (.ok x))
    (second : Prints (k x) more result) : Prints (m >>= k) (text ++ more) result := by
  intro sink
  rw [ExceptT.run_bind, StateT.run_bind, first sink, Sink.writeText_append]
  generalize sink.writeText text = outcome
  obtain ⟨_ | _, left⟩ := outcome
  · rfl
  · exact second left

/-- A program that ends with an error is not followed by another one. -/
theorem Prints.bind_error {error : String} (first : Prints m text (.error error)) :
    Prints (m >>= k) text (.error error) := by
  intro sink
  rw [ExceptT.run_bind, StateT.run_bind, first sink]
  generalize sink.writeText text = outcome
  obtain ⟨_ | _, left⟩ := outcome
  · rfl
  · rfl

theorem prints_print_bind {whole : String} {k : Unit → Printing β} {result : Except String β}
    (more : String) (second : Prints (k ()) more result) (joined : text ++ more = whole) :
    Prints (print text >>= k) whole result :=
  joined ▸ (prints_print text).bind second

theorem prints_ok_bind {x : α} {result : Except String β} (second : Prints (k x) text result) :
    Prints (ofExcept (.ok x) >>= k) text result := by
  have both := (prints_ofExcept (.ok x)).bind second
  rwa [String.empty_append] at both

theorem prints_error_bind (error : String) :
    Prints (ofExcept (.error error) >>= k) "" (.error error) :=
  (prints_ofExcept (.error error)).bind_error

end Printing

end CallTrace
