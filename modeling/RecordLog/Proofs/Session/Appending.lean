import RecordLog.Proofs.Session.Apart

/-!
# Where appended bytes go

What a writer brings to its file goes to the offset of the writer's own descriptor, which knows only
of what this writer has written. That is the end of the file as long as the writers of a session are
apart. Where a path is opened on whose file another writer is, that writer goes on at its old
offset: what it appends then leaves a gap, or comes in place of what has been written since.

## Main definitions

* `RecordLog.Writer.brings`, the bytes that an action is to bring to the file of a writer.

## Main results

* `RecordLog.Writer.exists_writes_of_brings`.
* `RecordLog.Session.content?_of_brings`.
-/

namespace RecordLog

open Session (Action)

/-- The bytes that an action is to bring to the file: what is appended directly, or what a flush
finds held back. -/
def Writer.brings : Writer → Action → Bytes
  | .direct _, .append data => data
  | .buffered w, .flush => w.pending
  | _, _ => []

/-- What an action that succeeds brings is handed over through the descriptor of the writer. -/
theorem Writer.exists_writes_of_brings {v : Volume} {w : Writer} {d : Descriptor} {a : Action}
    (hd : w.descriptor? = some d) (ha : w.brings a ≠ [])
    (hok : (a.apply v w).result = .ok ()) :
    ∃ d', v.Writes d (w.brings a) (a.apply v w).volume d' := by
  cases w with
  | direct w =>
      cases a with
      | append data =>
          obtain ⟨p, descriptor, m⟩ := w
          obtain rfl : descriptor = some d := hd
          have hdata : data ≠ [] := ha
          have hout : append v (.direct ⟨p, some d, m⟩) data =
              ⟨(v.writeAll d data).result.mapError (.refused p), (v.writeAll d data).volume,
                .direct ⟨p, some (v.writeAll d data).descriptor, m⟩⟩ := by
            simp [append, DirectWriter.append, hdata, Outcome.map]
          rw [Action.apply, hout] at hok ⊢
          exact ⟨_, v.writes_of_writeAll_ok (Backing.eq_ok_of_mapError hok)⟩
      | flush | sync | close => exact absurd rfl ha
  | buffered w =>
      cases a with
      | flush =>
          obtain ⟨p, capacity, stream, m⟩ := w
          obtain ⟨s, rfl, rfl⟩ := Option.map_eq_some_iff.1 hd
          have hspilled : (s.spill v).1 = .ok () := Backing.eq_ok_of_mapError hok
          exact ⟨_, v.writes_of_writeAll_ok hspilled⟩
      | append | sync | close => exact absurd rfl ha

namespace Session

variable {s : Session} {h : String} {x : Held} {d : Descriptor} {id : Nat} {c : Bytes} {a : Action}

/-- Writers that are apart write at the ends of their files. -/
theorem IsApart.offset_eq (hs : s.IsApart) (hx : s.held.lookup h = some x)
    (hd : x.writer.descriptor? = some d) (hfile : d.file? = some id)
    (hc : s.volume.content? id = some c) : d.offset = c.length := by
  have hxfile : x.writer.file? = some id := by rw [Writer.file?, hd, Option.bind_some, hfile]
  obtain ⟨d', c', hd', -, hc', hoffset⟩ := hs.isAtEnd hx hxfile
  rw [hd] at hd'
  cases hd'
  rw [hc] at hc'
  cases hc'
  exact hoffset

/-- **Bytes go where the writer's descriptor is.** Whatever has been done in a session, what an
action brings to a file is written over what the file holds, from the offset of the writer's
descriptor on. So it comes behind all that the file holds if and only if that offset is the end of
the file; and it is as long as no file has been opened that a writer wrote to at the time. -/
theorem content?_of_brings {s₀ : Session} (h₀ : s₀.held = []) (steps : List Step)
    (hx : (s₀.after steps).held.lookup h = some x) (hd : x.writer.descriptor? = some d)
    (hid : d.object = .file id) (hc : (s₀.after steps).volume.content? id = some c)
    (ha : x.writer.brings a ≠ []) (hdone : ((s₀.after steps).step (.act h a)).1 = .done) :
    ((s₀.after steps).step (.act h a)).2.volume.content? id =
        some (Volume.overwritten c d.offset (x.writer.brings a)) ∧
      (Volume.overwritten c d.offset (x.writer.brings a) = c ++ x.writer.brings a ↔
        d.offset = c.length) ∧
      (s₀.RunsApart steps → d.offset = c.length) := by
  rw [step_act hx] at hdone ⊢
  have hok : (a.apply (s₀.after steps).volume x.writer).result = .ok () := by
    cases hresult : (a.apply (s₀.after steps).volume x.writer).result with
    | ok => rfl
    | error e =>
        rw [hresult] at hdone
        cases hdone
  obtain ⟨d', hwrites⟩ := Writer.exists_writes_of_brings hd ha hok
  refine ⟨(hwrites.content?_eq hid hc ha).1, Volume.overwritten_eq_append_iff ha,
    fun hapart => ?_⟩
  have hfile : d.file? = some id :=
    Descriptor.file?_eq_some_iff.2 ⟨hid, hwrites.writable ha⟩
  exact ((isApart_of_held_eq_nil h₀).after hapart).offset_eq hx hd hfile hc

/-- A session on a new volume, with a direct backing. -/
def atStart : Session :=
  { volume := .empty, backing := .defaultDirect, options := {}
    settings := { specific := some (Bytes.ofAscii "scratch"), general := none, temporary := [] } }

/-- Two writers on two files. -/
def twoWriters : List Step :=
  [.openNew "a" (Bytes.ofAscii "p"), .openNew "b" (Bytes.ofAscii "q"), .act "a" (.append [1, 2]),
    .act "b" (.append [3])]

/-- One of two writers on two files appends again. -/
theorem content?_of_brings_second :
    ∃ (x : Held) (d : Descriptor),
      (atStart.after twoWriters).held.lookup "a" = some x ∧ x.writer.descriptor? = some d ∧
      d.object = .file 0 ∧ (atStart.after twoWriters).volume.content? 0 = some [1, 2] ∧
      x.writer.brings (.append [4]) ≠ [] ∧
      ((atStart.after twoWriters).step (.act "a" (.append [4]))).1 = .done ∧
      atStart.RunsApart twoWriters ∧
      ((atStart.after twoWriters).step (.act "a" (.append [4]))).2.volume.content? 0 =
        some (Volume.overwritten [1, 2] d.offset (x.writer.brings (.append [4]))) ∧
      (Volume.overwritten [1, 2] d.offset (x.writer.brings (.append [4])) =
          [1, 2] ++ x.writer.brings (.append [4]) ↔ d.offset = [1, 2].length) ∧
      d.offset = [1, 2].length := by
  have hx : (atStart.after twoWriters).held.lookup "a" = some ⟨.direct ⟨Bytes.ofAscii "p",
      some { object := .file 0, writable := true, offset := 2 }, false⟩, false⟩ := by decide
  have hc : (atStart.after twoWriters).volume.content? 0 = some [1, 2] := by decide
  have hdone : ((atStart.after twoWriters).step (.act "a" (.append [4]))).1 = .done := by decide
  have hapart : atStart.RunsApart twoWriters :=
    ⟨by decide, by decide, by decide, by decide, trivial⟩
  obtain ⟨hcontent, hend, hoffset⟩ :=
    content?_of_brings (a := .append [4]) (rfl : atStart.held = []) twoWriters hx rfl rfl hc nofun
      hdone
  exact ⟨_, _, hx, rfl, rfl, hc, nofun, hdone, hapart, hcontent, hend, hoffset hapart⟩

/-- A path that is opened again while the first writer on it is there. -/
def reopened : List Step :=
  [.openNew "a" (Bytes.ofAscii "p"), .act "a" (.append [0x61, 0x62, 0x63]),
    .openNew "b" (Bytes.ofAscii "p")]

/-- What the first writer on a path appends after that has been opened again does not come at the
end of the file, which is empty, but leaves a gap before it. -/
theorem content?_act_reopened :
    (atStart.after reopened).volume.content? 0 = some [] ∧
      ((atStart.after reopened).step (.act "a" (.append [0x64]))).1 = .done ∧
      ((atStart.after reopened).step (.act "a" (.append [0x64]))).2.volume.content? 0 =
        some [0, 0, 0, 0x64] ∧
      ((atStart.after reopened).step (.act "a" (.append [0x64]))).2.volume.content? 0 ≠
        some ([] ++ [0x64]) := by
  decide

end Session

end RecordLog
