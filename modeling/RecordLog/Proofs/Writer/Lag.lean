import RecordLog.Proofs.Writer.Refusal

/-!
# How far a file is behind

A buffered writer has a regular file for itself, in which there is room for all that is appended:
between its calls anything may happen to the volume, but what the file holds is left alone. Then the
file is a first part of all that has been appended, and lacks no more than the buffer can hold. How
an append is divided between the two tells when it is brought to the file at once, when nothing is,
and when only the buffer is. A buffer of a single byte holds nothing ever, since whatever is not
nothing is too much for it.

## Main definitions

* `RecordLog.Session.Action.appended` and `RecordLog.Writer.Reaches`.
* `RecordLog.Writer.IsBehind`, the invariant of a writer that has its file for itself.

## Main results

* `RecordLog.Writer.IsBehind.apply`: a call succeeds and keeps the invariant.
* `RecordLog.Writer.Reaches.isBehind`.
* `RecordLog.Writer.lag_is_bounded`.
-/

namespace RecordLog

open Session (Action)

/-- The bytes that a call appends. -/
def Session.Action.appended : Action → Bytes
  | .append data => data
  | .flush | .sync | .close => []

/-! ### Dividing an append -/

namespace Stream

variable {capacity : Nat} {content pending data : Bytes}

theorem divide_of_large (h : capacity ≤ data.length) :
    divide capacity content pending data = (content ++ pending ++ data, []) := if_pos h

theorem divide_of_over (hsmall : data.length < capacity)
    (hover : capacity < pending.length + data.length) :
    divide capacity content pending data = (content ++ pending, data) := by
  rw [divide, if_neg (Nat.not_le.2 hsmall), if_neg (Nat.not_le.2 hover)]

/-- What a buffer ever holds: nothing, or up to its capacity if that is more than a byte. -/
def Fits (capacity : Nat) (pending : Bytes) : Prop :=
  pending = [] ∨ 1 < capacity ∧ pending.length ≤ capacity

theorem fits_nil (capacity : Nat) : Fits capacity [] := Or.inl rfl

theorem Fits.length_le (h : Fits capacity pending) : pending.length ≤ capacity := by
  obtain rfl | ⟨-, hlength⟩ := h
  · exact Nat.zero_le capacity
  · exact hlength

theorem Fits.eq_nil (h : Fits capacity pending) (hcapacity : capacity ≤ 1) : pending = [] :=
  h.resolve_right fun hlarge => Nat.not_lt.2 hcapacity hlarge.1

/-- An append never overfills a buffer, whatever that holds before. -/
theorem fits_divide (capacity : Nat) (content pending : Bytes) (hdata : data ≠ []) :
    Fits capacity (divide capacity content pending data).2 := by
  have hlength : 0 < data.length := List.length_pos_iff.2 hdata
  unfold divide
  split_ifs with hlarge hroom
  · exact fits_nil capacity
  · exact Or.inr ⟨by omega, by rwa [List.length_append]⟩
  · exact Or.inr ⟨by omega, Nat.le_of_not_le hlarge⟩

end Stream

/-! ### Reaching a state -/

namespace Writer

open RecordLog.Stream (divide Fits HasRoom)

/-- A buffered writer comes to a state by calls that do not close it, beginning with an empty file.
Between the calls the volume may change, but not what the file holds; at each call the file has room
for all that has been appended, so that no write fails. `stream` is all that has been appended. -/
inductive Reaches (p : Bytes) (capacity : Nat) (m : Bool) (id : Nat) :
    Volume → Writer → Bytes → Prop
  | opened {v : Volume} {d : Descriptor} (h : v.IsTruncated d id) :
      Reaches p capacity m id v (holding p capacity m d []) []
  | elsewhere {v v' : Volume} {w : Writer} {stream : Bytes} (h : Reaches p capacity m id v w stream)
      (hfile : v'.content? id = v.content? id) : Reaches p capacity m id v' w stream
  | called {v : Volume} {w : Writer} {stream : Bytes} (h : Reaches p capacity m id v w stream)
      (a : Action) (ha : a ≠ .close) (hholds : v.CanHold (stream ++ a.appended).length) :
      Reaches p capacity m id (a.apply v w).volume (a.apply v w).writer (stream ++ a.appended)

/-- A writer is open behind what its file holds, and the file lacks of all that has been appended
just what is in the buffer. -/
def IsBehind (p : Bytes) (capacity : Nat) (m : Bool) (id : Nat) (v : Volume) (w : Writer)
    (stream : Bytes) : Prop :=
  ∃ x b, w = holding p capacity m (.atEnd id x) b ∧ v.content? id = some x ∧ x ++ b = stream ∧
    Fits capacity b

variable {p : Bytes} {capacity id : Nat} {m : Bool} {v : Volume} {w : Writer}
  {stream x b data : Bytes}

/-- The file and the buffer after an append. -/
theorem append_holding_atEnd (p : Bytes) (capacity : Nat) (m : Bool) (h : v.content? id = some x)
    (hdata : data ≠ []) (hholds : v.CanHold (x ++ b ++ data).length) :
    ∃ v', (holding p capacity m (.atEnd id x) b).append v data =
        ⟨.ok (), v', holding p capacity m (.atEnd id (divide capacity x b data).1)
          (divide capacity x b data).2⟩ ∧
      v'.content? id = some (divide capacity x b data).1 := by
  obtain ⟨v', happend, hv', -⟩ := Stream.append_atEnd h capacity b hdata hholds
  exact ⟨v', append_holding p capacity m v hdata happend, hv'⟩

theorem IsBehind.append (h : IsBehind p capacity m id v w stream)
    (hholds : v.CanHold (stream ++ data).length) :
    (w.append v data).result = .ok () ∧
      IsBehind p capacity m id (w.append v data).volume (w.append v data).writer
        (stream ++ data) := by
  obtain ⟨x, b, rfl, hx, rfl, hfits⟩ := h
  by_cases hdata : data = []
  · rw [hdata, append_holding_nil, List.append_nil]
    exact ⟨rfl, x, b, rfl, hx, rfl, hfits⟩
  · obtain ⟨v', happend, hv'⟩ := append_holding_atEnd p capacity m hx hdata hholds
    rw [happend]
    exact ⟨rfl, _, _, rfl, hv', Stream.divide_append capacity x b data,
      Stream.fits_divide capacity x b hdata⟩

theorem IsBehind.flush (h : IsBehind p capacity m id v w stream)
    (hholds : v.CanHold stream.length) :
    (w.flush v).result = .ok () ∧
      IsBehind p capacity m id (w.flush v).volume (w.flush v).writer stream := by
  obtain ⟨x, b, rfl, hx, rfl, -⟩ := h
  obtain ⟨v', hflush, hv', -⟩ := flush_atEnd p capacity m hx hholds
  have hcall : (holding p capacity m (.atEnd id x) b).flush v =
      ⟨.ok (), v', holding p capacity m (.atEnd id (x ++ b)) []⟩ := by
    simp [holding, Writer.flush, hflush, Outcome.map]
  rw [hcall]
  exact ⟨rfl, _, _, rfl, hv', List.append_nil _, Stream.fits_nil capacity⟩

/-- A sync brings the buffer to the file, however it is answered. -/
theorem IsBehind.sync (h : IsBehind p capacity m id v w stream)
    (hholds : v.CanHold stream.length) :
    (v.conditions.synced m = .ok () → (w.sync v).result = .ok ()) ∧
      IsBehind p capacity m id (w.sync v).volume (w.sync v).writer stream := by
  obtain ⟨x, b, rfl, hx, rfl, -⟩ := h
  obtain ⟨v', hsync, hv', -⟩ := sync_atEnd p capacity m hx hholds
  have hcall : (holding p capacity m (.atEnd id x) b).sync v =
      ⟨(v.conditions.synced m).mapError (.unsynced p), v',
        holding p capacity m (.atEnd id (x ++ b)) []⟩ := by
    simp [holding, Writer.sync, hsync, Outcome.map]
  rw [hcall]
  exact ⟨fun hsynced => by rw [hsynced]; rfl, _, _, rfl, hv', List.append_nil _,
    Stream.fits_nil capacity⟩

/-- **A call succeeds, and leaves the file behind by no more than the buffer can hold.** Only a sync
may fail, and it comes to the same even then. -/
theorem IsBehind.apply (h : IsBehind p capacity m id v w stream) {a : Action} (ha : a ≠ .close)
    (hholds : v.CanHold (stream ++ a.appended).length) :
    ((a = .sync → v.conditions.synced m = .ok ()) → (a.apply v w).result = .ok ()) ∧
      IsBehind p capacity m id (a.apply v w).volume (a.apply v w).writer
        (stream ++ a.appended) := by
  cases a with
  | append data =>
      obtain ⟨hresult, hbehind⟩ := h.append hholds
      exact ⟨fun _ => hresult, hbehind⟩
  | flush =>
      rw [Action.appended, List.append_nil] at hholds ⊢
      obtain ⟨hresult, hbehind⟩ := h.flush hholds
      exact ⟨fun _ => hresult, hbehind⟩
  | sync =>
      rw [Action.appended, List.append_nil] at hholds ⊢
      obtain ⟨hresult, hbehind⟩ := h.sync hholds
      exact ⟨fun hsynced => hresult (hsynced rfl), hbehind⟩
  | close => exact absurd rfl ha

/-- **So it is in every state that is reached.** -/
theorem Reaches.isBehind (h : Reaches p capacity m id v w stream) :
    IsBehind p capacity m id v w stream := by
  induction h with
  | opened h =>
      obtain ⟨rfl, hcontent⟩ := h
      exact ⟨[], [], rfl, hcontent, rfl, Stream.fits_nil capacity⟩
  | elsewhere _ hfile ih =>
      obtain ⟨x, b, hw, hx, hstream, hfits⟩ := ih
      exact ⟨x, b, hw, hfile.trans hx, hstream, hfits⟩
  | called _ a ha hholds ih => exact (ih.apply ha hholds).2

/-! ### Where an append goes -/

/-- Bytes that are too many for any buffer are in the file at once, with all before them. -/
theorem IsBehind.append_of_large (h : IsBehind p capacity m id v w stream)
    (hholds : v.CanHold (stream ++ data).length) (hdata : data ≠ [])
    (hlarge : capacity ≤ data.length) :
    (w.append v data).writer.pending = [] ∧
      (w.append v data).volume.content? id = some (stream ++ data) := by
  obtain ⟨x, b, rfl, hx, rfl, -⟩ := h
  obtain ⟨v', happend, hv'⟩ := append_holding_atEnd p capacity m hx hdata hholds
  rw [Stream.divide_of_large hlarge] at happend hv'
  rw [happend]
  exact ⟨rfl, hv'⟩

/-- Bytes for which there is room are in the buffer, and nothing else happens. -/
theorem IsBehind.append_of_hasRoom (h : IsBehind p capacity m id v w stream)
    (hroom : HasRoom capacity w.pending data) :
    (w.append v data).writer.pending = w.pending ++ data ∧ (w.append v data).volume = v := by
  obtain ⟨x, b, rfl, -, rfl, -⟩ := h
  rw [pending_holding] at hroom
  by_cases hdata : data = []
  · rw [hdata, append_holding_nil, List.append_nil]
    exact ⟨rfl, rfl⟩
  · rw [Writer.append_of_hasRoom p m v hdata hroom]
    exact ⟨rfl, rfl⟩

/-- All other bytes are alone in the buffer, and all before them is in the file. -/
theorem IsBehind.append_of_over (h : IsBehind p capacity m id v w stream)
    (hholds : v.CanHold (stream ++ data).length)
    (hlarge : ¬ (data ≠ [] ∧ capacity ≤ data.length)) (hroom : ¬ HasRoom capacity w.pending data) :
    (w.append v data).writer.pending = data ∧
      (w.append v data).volume.content? id = some stream := by
  obtain ⟨x, b, rfl, hx, rfl, hfits⟩ := h
  have hlength := hfits.length_le
  rw [pending_holding] at hroom
  by_cases hdata : data = []
  · -- Without room for nothing there is no buffer at all.
    subst hdata
    have hnone : ¬ 0 < capacity := fun hpos => hroom ⟨hpos, hlength⟩
    rw [append_holding_nil, hfits.eq_nil (by omega), List.append_nil]
    exact ⟨rfl, hx⟩
  · have hsmall : data.length < capacity := by
      by_contra hlong
      exact hlarge ⟨hdata, Nat.le_of_not_lt hlong⟩
    have hover : capacity < b.length + data.length := by
      by_contra hfit
      exact hroom ⟨hsmall, Nat.le_of_not_lt hfit⟩
    obtain ⟨v', happend, hv'⟩ := append_holding_atEnd p capacity m hx hdata hholds
    rw [Stream.divide_of_over hsmall hover] at happend hv'
    rw [happend]
    exact ⟨rfl, hv'⟩

/-- **A file is behind by no more than the buffer can hold.** Let a buffered writer have a file for
itself, with room for all that is appended, and be called in whatever way, but not closed. What the
file holds is what has been appended but for what is in the buffer, and that is never more than the
capacity; with a capacity of no more than a byte, the file holds all. No call fails, but for a sync
that the system refuses. Bytes that are as many as the capacity come to the file with all before
them, and leave the buffer empty. Fewer leave the volume as it is if they fit behind what is in the
buffer. Any other append leaves in the buffer just what it appends. -/
theorem lag_is_bounded (h : Reaches p capacity m id v w stream) :
    (∃ x, v.content? id = some x ∧ x ++ w.pending = stream ∧ w.pending.length ≤ capacity ∧
        (capacity ≤ 1 → x = stream)) ∧
      (∀ a, a ≠ .close → v.CanHold (stream ++ Action.appended a).length →
        (a = .sync → v.conditions.synced m = .ok ()) → (Action.apply v w a).result = .ok ()) ∧
      ∀ data, v.CanHold (stream ++ data).length →
        (data ≠ [] ∧ capacity ≤ data.length →
          (w.append v data).writer.pending = [] ∧
            (w.append v data).volume.content? id = some (stream ++ data)) ∧
        (data.length < capacity ∧ w.pending.length + data.length ≤ capacity →
          (w.append v data).writer.pending = w.pending ++ data ∧
            (w.append v data).volume = v) ∧
        (¬ (data ≠ [] ∧ capacity ≤ data.length) →
          ¬ (data.length < capacity ∧ w.pending.length + data.length ≤ capacity) →
          (w.append v data).writer.pending = data ∧
            (w.append v data).volume.content? id = some stream) := by
  have hbehind := h.isBehind
  refine ⟨?_, fun a ha hholds => (hbehind.apply ha hholds).1, fun data hholds =>
    ⟨fun hlarge => hbehind.append_of_large hholds hlarge.1 hlarge.2,
      fun hroom => hbehind.append_of_hasRoom hroom,
      fun hlarge hroom => hbehind.append_of_over hholds hlarge hroom⟩⟩
  obtain ⟨x, b, rfl, hx, rfl, hfits⟩ := hbehind
  refine ⟨x, hx, rfl, hfits.length_le, fun hcapacity => ?_⟩
  rw [hfits.eq_nil hcapacity, List.append_nil]

/-- A buffer of four bytes is filled to the brim while a directory is made. Nothing has come to the
file then; one byte more brings the four there, and four more bring all. -/
theorem lag_is_bounded_at_brim :
    ∃ v w, Reaches [0x66] 4 true 0 v w [1, 2, 3, 4] ∧ v.content? 0 = some [] ∧
      w.pending = [1, 2, 3, 4] ∧
      (w.append v [5]).writer.pending = [5] ∧
      (w.append v [5]).volume.content? 0 = some [1, 2, 3, 4] ∧
      (w.append v [5, 6, 7, 8]).writer.pending = [] ∧
      (w.append v [5, 6, 7, 8]).volume.content? 0 = some [1, 2, 3, 4, 5, 6, 7, 8] := by
  let v : Volume := oneFile.setFile 0 ⟨0o644, []⟩
  let made : Volume := v.addEntry [[0x64]] (.directory 0o755)
  let first := Action.apply v (holding [0x66] 4 true (.atEnd 0 []) []) (.append [1, 2])
  let second := Action.apply made first.writer (.append [3, 4])
  have hholds {u : Volume} (n : Nat) (hu : u.conditions.sizeLimit = none) : u.CanHold n :=
    Volume.IsUnlimited.canHold hu n
  have hfirst : Reaches [0x66] 4 true 0 made first.writer [1, 2] :=
    .elsewhere (.called (.opened ⟨rfl, rfl⟩) (.append [1, 2]) nofun (hholds _ rfl)) rfl
  have hsecond : Reaches [0x66] 4 true 0 second.volume second.writer [1, 2, 3, 4] :=
    hfirst.called (.append [3, 4]) nofun (hholds _ rfl)
  obtain ⟨-, -, happend⟩ := lag_is_bounded hsecond
  obtain ⟨-, -, hover⟩ := happend [5] (hholds _ rfl)
  obtain ⟨hpending, hcontent⟩ := hover (by decide) (by decide)
  obtain ⟨hnone, hall⟩ := (happend [5, 6, 7, 8] (hholds _ rfl)).1 (by decide)
  exact ⟨_, _, hsecond, rfl, rfl, hpending, hcontent, hnone, hall⟩

end Writer

end RecordLog
