import KalshiAutotrader.Kit.Lines
import KalshiAutotrader.Md.MessageFlow

/-!
Reading the capture file back.

A message is captured as it came, with a newline after it. Nothing keeps a
newline out of a message, JSON has them between its tokens, and a message with
one takes up several lines of the file. The lines of a run are its messages when
no message has one.
-/

namespace KalshiAutotrader.Md

open Kit KalshiAutotrader.Core Simdjson FeedHandler

/-- Cut at its newlines, the capture file of a run gives the messages of the run
exactly when none of them holds a newline. -/
theorem replay_iff (iterate : ℕ → Bytes → Except SimdError Document) (options : RunOptions)
    (acts : List FeedAct) (s : RunState)
    (h : (feed iterate options).exec (feed iterate options).start acts = some s) :
    s.captureFile.splitOn newline = received acts ++ [[]] ↔
      ∀ msg ∈ received acts, newline ∉ msg := by
  obtain ⟨-, hs⟩ := counted_of_exec h
  rw [captureFile_of_counted hs]
  exact splitOn_records_iff

/-- The messages of two connections, the second one opened after an error. -/
def twoLines : List FeedAct :=
  opening ++ [.read (.ok (ascii "\x7b")), .read (.error (ascii "reset")), .expire,
      .waited ⟨0, 0⟩] ++
    opening ++ [.read (.ok (ascii "\x7d"))]

theorem exec_twoLines :
    ∃ s, (feed eager localOptions).exec (feed eager localOptions).start twoLines = some s :=
  Option.isSome_iff_exists.mp (by decide +kernel)

theorem twoLines_replayed :
    ∃ s, (feed eager localOptions).exec (feed eager localOptions).start twoLines = some s ∧
      s.captureFile.splitOn newline = received twoLines ++ [[]] := by
  obtain ⟨s, hs⟩ := exec_twoLines
  exact ⟨s, hs, (replay_iff eager localOptions twoLines s hs).mpr (by decide +kernel)⟩

/-- One message, an empty object with a newline between its braces. -/
def brokenLine : List FeedAct := opening ++ [.read (.ok (ascii "\x7b\n\x7d"))]

/-- The message is cut in two, and its file is the file of two messages. -/
theorem brokenLine_not_replayed :
    ∃ s s', (feed eager localOptions).exec (feed eager localOptions).start brokenLine = some s ∧
      (feed eager localOptions).exec (feed eager localOptions).start twoLines = some s' ∧
      received brokenLine = [ascii "\x7b\n\x7d"] ∧
      s.captureFile.splitOn newline = [ascii "\x7b", ascii "\x7d", []] ∧
      s.captureFile = s'.captureFile := by
  obtain ⟨s, hs⟩ := Option.isSome_iff_exists.mp (show ((feed eager localOptions).exec
    (feed eager localOptions).start brokenLine).isSome = true by decide +kernel)
  obtain ⟨s', hs'⟩ := exec_twoLines
  have hfile := captureFile_of_counted (counted_of_exec hs).2
  have hfile' := captureFile_of_counted (counted_of_exec hs').2
  refine ⟨s, s', hs, hs', by decide +kernel, ?_, ?_⟩
  · rw [hfile]
    decide +kernel
  · rw [hfile, hfile']
    decide +kernel

end KalshiAutotrader.Md
