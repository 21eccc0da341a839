import SyntaxView.CommandLine.Run
import SyntaxView.Proofs.FileSystem
import SyntaxView.Proofs.ParsedFile
import SyntaxView.Proofs.Source

/-!
# Where the output goes

Parsed files are written to the standard output or to a file. Writing fails exactly if the file cannot be opened or if
it leads to a device that takes no data (`OutputFails`). Else their text (`ParsedFile.textOf`) stands where it was meant
to go (`Holds`, `writeUnits_ok`): all of it on the standard output, or all of it under the path of the file, with
nothing on the standard output. Only a device that forgets what it is given holds nothing.
-/

namespace SyntaxView

namespace CommandLine

open FileSystem (Place)
open ParsedFile (textOf)

/-- The output cannot be opened, or it leads to a device that takes no data. -/
def OutputFails (w : Place) (output : Option Path) : Prop :=
  ∃ path, output = some path ∧ ((∃ e, w.create path = .error e) ∨ w.found? path = some .fullDevice)

instance (w : Place) : (output : Option Path) → Decidable (OutputFails w output)
  | none => isFalse nofun
  | some path =>
    match h : w.create path with
    | .error e => isTrue ⟨path, rfl, .inl ⟨e, h⟩⟩
    | .ok _ => decidable_of_iff (w.found? path = some .fullDevice) ⟨fun hfull => ⟨path, rfl, .inr hfull⟩, by
        rintro ⟨_, hpath, ⟨e, he⟩ | hfull⟩
        · cases hpath
          rw [h] at he
          cases he
        · cases hpath
          exact hfull⟩

/-- After a run from `w` that ends with the file system `fs` and with this standard output, the text is where the output
goes. A device that forgets what it is given holds nothing, and all files stay as they were. -/
def Holds (w : Place) (fs : FileSystem) (stdout text : String) : Option Path → Prop
  | none => stdout = text ∧ fs = w.fs
  | some path => stdout = "" ∧
      if w.found? path = some .nullDevice then fs = w.fs else (Place.mk fs w.here).read path = .ok text

section Writing

variable {w : Place} {output : Option Path} (format : OutputFormat) (limit : Option Nat) (units : List ParsedFile)

theorem outText_writeOut : outText (writeOut format limit units).events = textOf format limit units := by
  simp [writeOut, out, Traced.emit, outText, Event.outText]

theorem writeUnits_error (h : OutputFails w output) :
    ∃ e fs, (writeUnits w output format limit units).value = (.error e, fs) := by
  obtain ⟨path, rfl, hfails⟩ := h
  change ∃ e fs, writeFile w path format limit units = (.error e, fs)
  unfold writeFile openOutput
  cases hcreate : w.create path with
  | error cause => exact ⟨_, _, rfl⟩
  | ok opened =>
    obtain ⟨opened, fs⟩ := opened
    have hfull : w.found? path = some .fullDevice := by
      rcases hfails with ⟨e, he⟩ | hfull
      · rw [hcreate] at he
        cases he
      · exact hfull
    obtain ⟨-, ⟨l, -, -, -, hfile⟩ | ⟨rfl, rfl, -⟩ | ⟨-, -, hnull⟩⟩ := Place.create_cases hcreate
    · obtain ⟨text, htext⟩ := hfile _ hfull
      cases htext
    · exact ⟨_, _, Prod.ext (ParsedFile.writeAll_alwaysFails format limit units _) rfl⟩
    · rw [hfull] at hnull
      cases hnull

theorem writeUnits_ok (h : ¬ OutputFails w output) :
    ∃ fs, (writeUnits w output format limit units).value = (.ok (), fs) ∧
      Holds w fs (outText (writeUnits w output format limit units).events) (textOf format limit units) output := by
  cases output with
  | none =>
    exact ⟨w.fs, rfl, by simp [writeUnits, outText_writeOut], rfl⟩
  | some path =>
    change ∃ fs, writeFile w path format limit units = (.ok (), fs) ∧ Holds w fs "" _ (some path)
    unfold writeFile openOutput
    cases hcreate : w.create path with
    | error cause => exact absurd ⟨path, rfl, .inl ⟨cause, hcreate⟩⟩ h
    | ok opened =>
      obtain ⟨opened, fs⟩ := opened
      have hok := ParsedFile.writeAll_neverFails format limit units Sink.neverFails_reliable
      obtain ⟨hnul, ⟨l, rfl, rfl, hspot, hfile⟩ | ⟨-, -, hfull⟩ | ⟨rfl, rfl, hnull⟩⟩ := Place.create_cases hcreate
      · refine ⟨_, Prod.ext hok rfl, rfl, ?_⟩
        rw [if_neg, FileSystem.set_set]
        · exact Place.read_set_of_spot hnul hspot
        · intro hnull
          obtain ⟨text, htext⟩ := hfile _ hnull
          cases htext
      · exact absurd ⟨path, rfl, .inr hfull⟩ h
      · exact ⟨_, Prod.ext hok rfl, rfl, by rw [if_pos hnull]⟩

end Writing

end CommandLine

end SyntaxView
