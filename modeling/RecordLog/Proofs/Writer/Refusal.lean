import RecordLog.Proofs.Volume.Frame
import RecordLog.Proofs.Writer.Closing

/-!
# Buffering where nothing can be written

A descriptor may refuse all bytes, as one for reading does. A buffered writer on it accepts just the
bytes that it can put into its buffer without writing: fewer than the buffer takes, and no more than
fit behind what is there. All else fails with the error of the write that is tried, and leaves the
buffer as it was, so that nothing is lost or accepted in part. The volume is left alone throughout.

## Main definitions

* `RecordLog.Stream.HasRoom`, when bytes are put into the buffer as it is.
* `RecordLog.Stream.triesFirst`, the bytes that an append tries to write first.
* `RecordLog.Writer.holding`.

## Main results

* `RecordLog.Volume.refuses_of_openToRead`.
* `RecordLog.Stream.append_of_refuses`.
* `RecordLog.Writer.afterEach_of_refuses`: what is in the buffer is what has been accepted.
* `RecordLog.Writer.holds_back_refused`.
-/

namespace RecordLog

open Session (Action)

/-- All bytes are refused by a descriptor on a path that was opened to read from it. -/
theorem Volume.refuses_of_openToRead {v : Volume} {p : Bytes} {d : Descriptor}
    (h : v.openToRead p = .ok d) (v' : Volume) : v'.Refuses d := by
  intro data _
  exact ⟨.os Errno.badDescriptor, by simp [write, writable_openToRead h]⟩

/-! ### Streams -/

namespace Stream

/-- Bytes are put into a buffer as it is: they are fewer than it takes, and fit behind what it
holds. -/
def HasRoom (capacity : Nat) (pending data : Bytes) : Prop :=
  data.length < capacity ∧ pending.length + data.length ≤ capacity

instance (capacity : Nat) (pending data : Bytes) : Decidable (HasRoom capacity pending data) :=
  inferInstanceAs (Decidable (_ ∧ _))

/-- What an append for which there is no room tries to write first: the buffer, unless that is
empty. -/
def triesFirst (pending data : Bytes) : Bytes := if pending = [] then data else pending

variable {v : Volume} {s : Stream}

/-- A buffer that cannot be written out stays as it is. -/
theorem spill_of_refuses (hv : v.Refuses s.descriptor) (hs : s.pending ≠ []) :
    ∃ e, v.write s.descriptor s.pending = .error e ∧ s.spill v = (.error e, v, s) := by
  obtain ⟨e, he, hall⟩ := hv.writeAll_eq hs
  exact ⟨e, he, by simp [spill, hall]⟩

theorem spill_of_empty (v : Volume) (hs : s.pending = []) : s.spill v = (.ok (), v, s) := by
  obtain ⟨d, b⟩ := s
  obtain rfl : b = [] := hs
  rfl

theorem release_of_refuses (hv : v.Refuses s.descriptor) : s.release v = v := by
  by_cases hs : s.pending = []
  · rw [release, spill_of_empty v hs]
  · obtain ⟨e, -, hspill⟩ := spill_of_refuses hv hs
    rw [release, hspill]

/-- With room in the buffer nothing is written. -/
theorem append_of_hasRoom (v : Volume) {capacity : Nat} {data : Bytes}
    (h : HasRoom capacity s.pending data) : s.append capacity v data = s.hold v data := by
  obtain ⟨hsmall, hfits⟩ := h
  unfold append
  by_cases hroom : data.length < capacity - s.pending.length
  · rw [if_pos hroom]
  · have hbrim : ¬ capacity - s.pending.length < data.length := by omega
    rw [if_neg hroom, if_neg hbrim]
    exact if_neg (Nat.not_le.2 hsmall)

/-- **Without room an append fails at its first write**, and leaves the buffer as it was. -/
theorem append_of_refuses (hv : v.Refuses s.descriptor) {capacity : Nat} {data : Bytes}
    (hdata : data ≠ []) (h : ¬ HasRoom capacity s.pending data) :
    ∃ e, v.write s.descriptor (triesFirst s.pending data) = .error e ∧
      s.append capacity v data = (.error e, v, s) := by
  have hlength : 0 < data.length := List.length_pos_iff.2 hdata
  have hroom : ¬ data.length < capacity - s.pending.length := fun hroom => h ⟨by omega, by omega⟩
  unfold append
  rw [if_neg hroom]
  by_cases hs : s.pending = []
  · -- Nothing is there to be written out, so the bytes are too many for the buffer.
    obtain ⟨e, he, hall⟩ := hv.writeAll_eq hdata
    have hlarge : capacity ≤ data.length := by
      rw [hs, List.length_nil, Nat.sub_zero] at hroom
      exact Nat.le_of_not_lt hroom
    have hthrough : s.writeThrough v data = (.error e, v, s) := by simp [writeThrough, hall]
    refine ⟨e, by rwa [triesFirst, if_pos hs], ?_⟩
    rw [spill_of_empty v hs, ite_self]
    exact (if_pos hlarge).trans hthrough
  · obtain ⟨e, he, hspill⟩ := spill_of_refuses hv hs
    have hpos : 0 < s.pending.length := List.length_pos_iff.2 hs
    have hover : capacity - s.pending.length < data.length := by
      by_contra hbrim
      exact h ⟨by omega, by omega⟩
    refine ⟨e, by rwa [triesFirst, if_neg hs], ?_⟩
    rw [if_pos hover, hspill]

end Stream

/-! ### Writers -/

namespace Writer

open RecordLog.Stream (HasRoom triesFirst)

/-- A buffered writer that is open on a descriptor and holds bytes back. -/
def holding (p : Bytes) (capacity : Nat) (m : Bool) (d : Descriptor) (b : Bytes) : Writer :=
  .buffered ⟨p, capacity, some ⟨d, b⟩, m⟩

variable {v : Volume} (p : Bytes) (capacity : Nat) (m : Bool) {d : Descriptor} {b data : Bytes}

@[simp] theorem pending_holding : (holding p capacity m d b).pending = b := rfl

/-- Appending is left to the stream, unless there is nothing to append. -/
theorem append_holding (v : Volume) (hdata : data ≠ []) {r : Except SystemError Unit} {v' : Volume}
    {s : Stream} (h : Stream.append capacity v ⟨d, b⟩ data = (r, v', s)) :
    (holding p capacity m d b).append v data =
      ⟨r.mapError (.refused p), v', holding p capacity m s.descriptor s.pending⟩ := by
  simp [holding, append, BufferedWriter.append, BufferedWriter.ofStream, Outcome.map, hdata, h]

theorem append_holding_nil (v : Volume) : (holding p capacity m d b).append v [] =
    ⟨.ok (), v, holding p capacity m d b⟩ := rfl

theorem append_of_hasRoom (v : Volume) {capacity : Nat} (hdata : data ≠ [])
    (h : HasRoom capacity b data) :
    (holding p capacity m d b).append v data = ⟨.ok (), v, holding p capacity m d (b ++ data)⟩ :=
  append_holding p capacity m v hdata (Stream.append_of_hasRoom v h)

theorem append_of_refuses {capacity : Nat} (hv : v.Refuses d) (hdata : data ≠ [])
    (h : ¬ HasRoom capacity b data) :
    ∃ e, v.write d (triesFirst b data) = .error e ∧
      (holding p capacity m d b).append v data =
        ⟨.error (.refused p e), v, holding p capacity m d b⟩ := by
  obtain ⟨e, he, happend⟩ := Stream.append_of_refuses (s := ⟨d, b⟩) hv hdata h
  exact ⟨e, he, append_holding p capacity m v hdata happend⟩

/-- An append succeeds just if there is room. -/
theorem append_eq_ok_iff (hv : v.Refuses d) (hdata : data ≠ []) :
    ((holding p capacity m d b).append v data).result = .ok () ↔ HasRoom capacity b data := by
  by_cases h : HasRoom capacity b data
  · rw [append_of_hasRoom p m v hdata h]
    exact iff_of_true rfl h
  · obtain ⟨e, -, happend⟩ := append_of_refuses p m hv hdata h
    rw [happend]
    exact iff_of_false nofun h

theorem flush_of_empty (v : Volume) : (holding p capacity m d []).flush v =
    ⟨.ok (), v, holding p capacity m d []⟩ := rfl

/-- With something in the buffer a flush fails, and a sync in the same way. -/
theorem flush_of_refuses (hv : v.Refuses d) (hb : b ≠ []) :
    ∃ e, v.write d b = .error e ∧
      (holding p capacity m d b).flush v = ⟨.error (.refused p e), v, holding p capacity m d b⟩ ∧
      (holding p capacity m d b).sync v = ⟨.error (.refused p e), v, holding p capacity m d b⟩ := by
  obtain ⟨e, he, hspill⟩ := Stream.spill_of_refuses (s := ⟨d, b⟩) hv hb
  have hflush : BufferedWriter.flush v ⟨p, capacity, some ⟨d, b⟩, m⟩ =
      ⟨.error (.refused p e), v, ⟨p, capacity, some ⟨d, b⟩, m⟩⟩ := by
    simp [BufferedWriter.flush, BufferedWriter.ofStream, hspill, Except.mapError]
  refine ⟨e, he, ?_, ?_⟩
  · simp [holding, flush, hflush, Outcome.map]
  · simp [holding, sync, BufferedWriter.sync, hflush, Outcome.map]

/-- With nothing in the buffer a sync has nothing to write. -/
theorem sync_of_empty (v : Volume) : (holding p capacity m d []).sync v =
    ⟨(if m then v.syncAll d else v.syncData d).mapError (.unsynced p), v,
      holding p capacity m d []⟩ := rfl

/-- A close leaves the volume as it is, whether it fails or has nothing to write. -/
theorem volume_close_of_refuses (hv : v.Refuses d) :
    ((holding p capacity m d b).close v).volume = v := by
  by_cases hb : b = []
  · rw [holding, close_of_spilled (Stream.spill_of_empty v hb)]
  · obtain ⟨e, -, hspill⟩ := Stream.spill_of_refuses (s := ⟨d, b⟩) hv hb
    rw [holding, close_of_stuck hspill]
    exact Stream.release_of_refuses hv

theorem drop_of_refuses (hv : v.Refuses d) : (holding p capacity m d b).drop v = v := by
  by_cases hb : b = []
  · have hspill := Stream.spill_of_empty (s := ⟨d, b⟩) v hb
    simp [holding, drop, BufferedWriter.drop, hspill, Stream.release_of_refuses (s := ⟨d, b⟩) hv]
  · obtain ⟨e, -, hspill⟩ := Stream.spill_of_refuses (s := ⟨d, b⟩) hv hb
    simp [holding, drop, BufferedWriter.drop, hspill, Stream.release_of_refuses (s := ⟨d, b⟩) hv]

/-! ### Calls in a row -/

/-- **A call adds to the buffer what it makes the writer accept**, and leaves all else as it is. -/
theorem exists_outcome_of_refuses {c : Call} (hc : c.action ≠ .close) (hv : c.volume.Refuses d) :
    ∃ r, c.outcome (holding p capacity m d b) =
      ⟨r, c.volume, holding p capacity m d (b ++ c.accepted (holding p capacity m d b))⟩ := by
  obtain ⟨v, a⟩ := c
  cases a with
  | append data =>
      by_cases hdata : data = []
      · subst hdata
        exact ⟨.ok (),
          by simp [Call.outcome, Call.accepted, Action.apply, append_holding_nil, acceptedOf]⟩
      by_cases h : HasRoom capacity b data
      · have happend := append_of_hasRoom (d := d) p m v hdata h
        exact ⟨.ok (), by simp [Call.outcome, Call.accepted, Action.apply, happend, acceptedOf]⟩
      · obtain ⟨e, -, happend⟩ := append_of_refuses p m hv hdata h
        exact ⟨.error (.refused p e),
          by simp [Call.outcome, Call.accepted, Action.apply, happend, acceptedOf]⟩
  | flush =>
      rw [Call.accepted, List.append_nil]
      by_cases hb : b = []
      · rw [hb]
        exact ⟨_, flush_of_empty p capacity m v⟩
      · obtain ⟨e, -, hflush, -⟩ := flush_of_refuses p capacity m hv hb
        exact ⟨_, hflush⟩
  | sync =>
      rw [Call.accepted, List.append_nil]
      by_cases hb : b = []
      · rw [hb]
        exact ⟨_, sync_of_empty p capacity m v⟩
      · obtain ⟨e, -, -, hsync⟩ := flush_of_refuses p capacity m hv hb
        exact ⟨_, hsync⟩
  | close => exact absurd rfl hc

/-- **What is in the buffer is what has been accepted**, in order. -/
theorem afterEach_of_refuses {calls : List Call} (hcalls : ∀ c ∈ calls, c.action ≠ .close)
    (hrefuses : ∀ c ∈ calls, c.volume.Refuses d) :
    (holding p capacity m d b).afterEach calls =
      holding p capacity m d (b ++ (holding p capacity m d b).accepted calls) := by
  induction calls generalizing b with
  | nil => rw [afterEach, accepted, List.append_nil]
  | cons c calls ih =>
      obtain ⟨hc, hcalls⟩ := List.forall_mem_cons.1 hcalls
      obtain ⟨hv, hrefuses⟩ := List.forall_mem_cons.1 hrefuses
      obtain ⟨r, hr⟩ := exists_outcome_of_refuses (b := b) p capacity m hc hv
      rw [afterEach, accepted, hr, ih hcalls hrefuses, List.append_assoc]

/-- A call leaves the volume as it is. -/
theorem volume_apply_of_refuses (hv : v.Refuses d) (a : Action) :
    (a.apply v (holding p capacity m d b)).volume = v := by
  by_cases ha : a = .close
  · rw [ha]
    exact volume_close_of_refuses p capacity m hv
  · obtain ⟨r, hr⟩ := exists_outcome_of_refuses (b := b) (c := ⟨v, a⟩) p capacity m ha hv
    exact congrArg Outcome.volume hr

/-- **A buffered writer that cannot write accepts what its buffer has room for, and nothing else.**
Let all writes through its descriptor fail, and let it be called in whatever way, but not closed. It
is then as it was at first but for its buffer, which holds all that has been accepted. Bytes are
accepted just if they are fewer than the buffer takes and fit behind what it holds, and then come to
stand there; if not, the error is that of the write that is tried, and the writer is as before. So
it is for a flush or sync with something in the buffer, while without that a flush succeeds. No call
changes the volume, and neither does giving the writer up. -/
theorem holds_back_refused {calls : List Call} (hcalls : ∀ c ∈ calls, c.action ≠ .close)
    (hrefuses : ∀ c ∈ calls, c.volume.Refuses d) (hv : v.Refuses d) :
    let w := (holding p capacity m d []).afterEach calls
    (w = holding p capacity m d w.pending ∧
        w.pending = (holding p capacity m d []).accepted calls) ∧
      (∀ data, data ≠ [] →
        ((w.append v data).result = .ok () ↔
          data.length < capacity ∧ w.pending.length + data.length ≤ capacity) ∧
        ((w.append v data).result = .ok () →
          w.append v data = ⟨.ok (), v, holding p capacity m d (w.pending ++ data)⟩) ∧
        ((w.append v data).result ≠ .ok () →
          ∃ e, v.write d (triesFirst w.pending data) = .error e ∧
            w.append v data = ⟨.error (.refused p e), v, w⟩)) ∧
      w.append v [] = ⟨.ok (), v, w⟩ ∧
      (w.pending = [] → w.flush v = ⟨.ok (), v, w⟩ ∧
        w.sync v = ⟨(if m then v.syncAll d else v.syncData d).mapError (.unsynced p), v, w⟩) ∧
      (w.pending ≠ [] → ∃ e, v.write d w.pending = .error e ∧
        w.flush v = ⟨.error (.refused p e), v, w⟩ ∧ w.sync v = ⟨.error (.refused p e), v, w⟩) ∧
      (∀ a, (Action.apply v w a).volume = v) ∧ w.drop v = v ∧
      ∀ later, ((w.close v).writer.afterEach later).IsClosed p := by
  intro w
  have hw : w = holding p capacity m d ((holding p capacity m d []).accepted calls) :=
    afterEach_of_refuses p capacity m hcalls hrefuses
  rw [hw, pending_holding]
  refine ⟨⟨rfl, rfl⟩, fun data hdata => ?_, append_holding_nil p capacity m v, fun hb => ?_,
    flush_of_refuses p capacity m hv, volume_apply_of_refuses p capacity m hv,
    drop_of_refuses p capacity m hv, isClosed_afterEach_close v (holding p capacity m d _)⟩
  · have hiff := append_eq_ok_iff (b := (holding p capacity m d []).accepted calls) p capacity m hv
      hdata
    exact ⟨hiff, fun h => append_of_hasRoom p m v hdata (hiff.1 h),
      fun h => append_of_refuses p m hv hdata (mt hiff.2 h)⟩
  · rw [hb]
    exact ⟨flush_of_empty p capacity m v, sync_of_empty p capacity m v⟩

/-- A volume with a single file, which holds a byte. -/
def oneFile : Volume := ⟨[([], .directory 0o755), ([[0x66]], .file 0)], [⟨0o644, [9]⟩], [], {}⟩

/-- A buffer of four bytes, on a file that was opened to read from it: two bytes are accepted, three
more are not, and two more fill it to the brim. -/
theorem holds_back_refused_at_brim :
    ∃ (d : Descriptor) (calls : List Call), oneFile.openToRead [0x66] = .ok d ∧
      calls = [⟨oneFile, .append [1, 2]⟩, ⟨oneFile, .append [3, 4, 5]⟩,
        ⟨oneFile, .append [6, 7]⟩] ∧
      let w := (holding [0x66] 4 true d []).afterEach calls
      w.pending = [1, 2, 6, 7] ∧
        ((w.append oneFile [8]).result = .ok () ↔
          [8].length < 4 ∧ w.pending.length + [8].length ≤ 4) ∧
        (∃ e, oneFile.write d w.pending = .error e ∧
          w.flush oneFile = ⟨.error (.refused [0x66] e), oneFile, w⟩ ∧
          w.sync oneFile = ⟨.error (.refused [0x66] e), oneFile, w⟩) ∧
        w.drop oneFile = oneFile := by
  have hopen : oneFile.openToRead [0x66] = .ok { object := .file 0, writable := false } := rfl
  have hrefuses := Volume.refuses_of_openToRead hopen
  let calls : List Call :=
    [⟨oneFile, .append [1, 2]⟩, ⟨oneFile, .append [3, 4, 5]⟩, ⟨oneFile, .append [6, 7]⟩]
  have hcalls : ∀ c ∈ calls, c.action ≠ .close := by simp [calls]
  obtain ⟨-, happend, -, -, hflush, -, hdrop, -⟩ :=
    holds_back_refused [0x66] 4 true hcalls (fun c _ => hrefuses c.volume) (hrefuses oneFile)
  exact ⟨_, calls, hopen, rfl, rfl, (happend [8] nofun).1, hflush nofun, hdrop⟩

end Writer

end RecordLog
