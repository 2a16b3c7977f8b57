/-
# What is written

A writing emits a text: if it succeeds, then the sink has taken the bytes of the text behind
those that it had taken before. And a writing suits endless sinks: it succeeds there, and the sink
stays endless. Both are closed under doing one thing after another, so they are proved of a whole
protocol by going through its parts.
-/

import StagedSearch.Output.Protocol
import StagedSearch.Proofs.Store.Narrowing

namespace StagedSearch

/-- A sink that takes everything. -/
structure Sink.Endless (sink : Sink) : Prop where
  room : sink.room = .unlimited
  flushes : sink.flushes = none

namespace Writing

variable {first second : Writing Unit} {text later : String}

/-- If the writing succeeds, the sink has taken a text. -/
def Emits (writing : Writing Unit) (text : String) : Prop :=
  ∀ sink after, writing sink = .ok () after → after.taken = sink.taken ++ text.toUTF8

/-- The writing does not fail as long as the sink takes everything. -/
def SuitsEndless (writing : Writing Unit) : Prop :=
  ∀ sink : Sink, sink.Endless → ∃ after, writing sink = .ok () after ∧ after.Endless

theorem emits_pure : Emits (pure ()) "" := by
  rintro sink after ⟨⟩
  exact ByteArray.append_empty.symm

theorem Emits.andThen (here : Emits first text) (there : Emits second later) :
    Emits (do first; second) (text ++ later) := by
  intro sink after run
  obtain ⟨_, between, ran, run⟩ := bind_eq_ok.1 run
  rw [there between after run, here sink between ran, ByteArray.append_assoc]
  exact congrArg _ String.toByteArray_append.symm

theorem SuitsEndless.andThen (here : SuitsEndless first) (there : SuitsEndless second) :
    SuitsEndless (do first; second) := by
  intro sink endless
  obtain ⟨between, ran, endless⟩ := here sink endless
  obtain ⟨after, run, endless⟩ := there between endless
  exact ⟨after, bind_eq_ok.2 ⟨(), between, ran, run⟩, endless⟩

theorem suitsEndless_pure : SuitsEndless (pure ()) := fun sink endless => ⟨sink, rfl, endless⟩

end Writing

namespace Sink

/-- A write that succeeds has found room for the whole text. -/
theorem emits_write (text : String) : Writing.Emits (write text) text := by
  intro sink after run
  unfold write at run
  simp only at run
  split at run
  · cases run
  · rename_i fits
    cases run
    have all : text.toUTF8.extract 0 (sink.room.fit text.toUTF8).1 = text.toUTF8 := by
      apply ByteArray.ext
      rw [ByteArray.data_extract]
      exact Array.extract_eq_self_of_le (Nat.not_lt.1 fits)
    show sink.taken ++ text.toUTF8.extract 0 (sink.room.fit text.toUTF8).1 = _
    rw [all]

theorem suitsEndless_write (text : String) : Writing.SuitsEndless (write text) := by
  rintro sink ⟨room, flushes⟩
  unfold write
  simp only [room, Room.fit, lt_irrefl, if_false]
  exact ⟨_, rfl, rfl, flushes⟩

theorem emits_flush : Writing.Emits flush "" := by
  intro sink after run
  unfold flush at run
  split at run
  · cases run
    exact ByteArray.append_empty.symm
  · cases run
  · cases run
    exact ByteArray.append_empty.symm

theorem suitsEndless_flush : Writing.SuitsEndless flush := by
  rintro sink ⟨room, flushes⟩
  unfold flush
  rw [flushes]
  exact ⟨sink, rfl, room, flushes⟩

end Sink

namespace Protocol

def textOf (lines : List String) : String := String.join (lines.map (· ++ "\n"))

theorem emits_writeLine (text : String) : Writing.Emits (writeLine text) (text ++ "\n") :=
  Sink.emits_write _

theorem suitsEndless_writeLine (text : String) : Writing.SuitsEndless (writeLine text) :=
  Sink.suitsEndless_write _

theorem emits_writeLines (lines : List String) :
    Writing.Emits (writeLines lines) (textOf lines) := by
  induction lines with
  | nil => exact Writing.emits_pure
  | cons text rest ih =>
    have join : textOf (text :: rest) = text ++ "\n" ++ textOf rest := String.join_cons
    rw [join]
    exact (emits_writeLine text).andThen ih

theorem suitsEndless_writeLines (lines : List String) :
    Writing.SuitsEndless (writeLines lines) := by
  induction lines with
  | nil => exact Writing.suitsEndless_pure
  | cons text rest ih => exact (suitsEndless_writeLine text).andThen ih

theorem suitsEndless_writeSolution (names : Names) (s : Store) :
    Writing.SuitsEndless (writeSolution names s) :=
  (Sink.suitsEndless_write _).andThen Sink.suitsEndless_flush

end Protocol

end StagedSearch
