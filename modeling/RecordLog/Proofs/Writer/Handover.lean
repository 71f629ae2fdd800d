import RecordLog.Proofs.Volume.Writing
import RecordLog.Proofs.Writer.Run

/-!
# Handing over

A writer is called again and again, and between two calls its volume may change in any way: others
write to it, and what could be written before may fail now, or only in part. However this may be,
the bytes that are taken and those handed over to the system are the same in the same order, but for
those that the writer still holds back. What is taken are the bytes of the appends that succeed; of
one that fails, some may have been written before it did. This needs neither that the writer has a
file for itself nor that its writes succeed.

## Main definitions

* `RecordLog.TakenOf`, what may be taken of some bytes, given how their append is answered.
* `RecordLog.Writer.Call`, a call with the volume that it finds.
* `RecordLog.Writer.afterEach`, `RecordLog.Writer.accepted` and `RecordLog.Writer.Takes`.
* `RecordLog.Writer.HandsOver`.

## Main results

* `RecordLog.Stream.exists_passes_append`: what passes through a buffer keeps its order.
* `RecordLog.Writer.Call.exists_passes`, for one call, and `RecordLog.Writer.exists_handsOver`, for
  calls in a row.
-/

namespace RecordLog

open Session (Action)

/-- What is accepted of some bytes, given how their append is answered: all or nothing. -/
def acceptedOf {ε : Type} (r : Except ε Unit) (data : Bytes) : Bytes :=
  match r with
  | .ok () => data
  | .error _ => []

@[simp] theorem acceptedOf_mapError {ε ε' : Type} (f : ε → ε') (r : Except ε Unit) (data : Bytes) :
    acceptedOf (r.mapError f) data = acceptedOf r data := by
  cases r <;> rfl

/-- What may be taken of some bytes on a volume, given how their append is answered: a first part of
them, which is what is accepted if the append succeeds or if files have room for all bytes. -/
structure TakenOf {ε : Type} (v : Volume) (r : Except ε Unit) (data taken : Bytes) : Prop where
  isPrefix : taken <+: data
  eq_accepted : r = .ok () ∨ v.IsUnlimited → taken = acceptedOf r data

theorem takenOf_ok {ε : Type} (v : Volume) (data : Bytes) :
    TakenOf v (.ok () : Except ε Unit) data data :=
  ⟨List.prefix_rfl, fun _ => rfl⟩

theorem takenOf_error {ε : Type} (v : Volume) (e : ε) (data : Bytes) :
    TakenOf v (.error e) data [] :=
  ⟨List.nil_prefix, fun _ => rfl⟩

theorem TakenOf.mapError {ε ε' : Type} {v : Volume} {r : Except ε Unit} {data taken : Bytes}
    (h : TakenOf v r data taken) (f : ε → ε') : TakenOf v (r.mapError f) data taken where
  isPrefix := h.isPrefix
  eq_accepted hr := by
    rw [acceptedOf_mapError]
    refine h.eq_accepted (hr.imp_left fun hok => ?_)
    cases r with
    | ok => rfl
    | error e => cases hok

theorem TakenOf.congr {ε : Type} {v v' : Volume} {r : Except ε Unit} {data taken : Bytes}
    (h : TakenOf v r data taken) (hconditions : v'.conditions = v.conditions) :
    TakenOf v' r data taken where
  isPrefix := h.isPrefix
  eq_accepted hr := h.eq_accepted (by rwa [Volume.IsUnlimited, ← hconditions])

/-- What is written of some bytes is taken of them. -/
theorem Volume.exists_takenOf_writeAll (v : Volume) (d : Descriptor) (data : Bytes) :
    ∃ taken, TakenOf v (v.writeAll d data).result data taken ∧
      v.Writes d taken (v.writeAll d data).volume (v.writeAll d data).descriptor := by
  obtain ⟨hresult, x, hx, hwrites⟩ := v.writes_writeAll d data
  refine ⟨x, ⟨⟨_, hx.symm⟩, ?_⟩, hwrites⟩
  rintro (hok | hv)
  · rw [hresult.1 hok, List.append_nil] at hx
    rw [hok, ← hx]
    rfl
  · obtain ⟨v', d', h⟩ | ⟨e, h⟩ := hv.writeAll_cases d data <;> rw [h] at hx ⊢
    · exact (hx.trans (List.append_nil x)).symm
    · exact List.self_eq_append_left.1 hx

/-! ### Streams -/

namespace Stream

/-- What a stream hands over and what it then holds back is what it held back before and has
taken. -/
def Passes (v : Volume) (s : Stream) (taken : Bytes) (r : Result) : Prop :=
  ∃ handed, v.Writes s.descriptor handed r.2.1 r.2.2.descriptor ∧
    s.pending ++ taken = handed ++ r.2.2.pending

theorem Passes.trans {v v₁ : Volume} {s s₁ : Stream} {x y : Bytes} {r : Except SystemError Unit}
    {r' : Result} (h : Passes v s x (r, v₁, s₁)) (h' : Passes v₁ s₁ y r') :
    Passes v s (x ++ y) r' := by
  obtain ⟨handed, hwrites, heq⟩ := h
  obtain ⟨handed', hwrites', heq'⟩ := h'
  refine ⟨handed ++ handed', hwrites.trans hwrites', ?_⟩
  calc s.pending ++ (x ++ y) = handed ++ (s₁.pending ++ y) := by
        rw [← List.append_assoc, heq, List.append_assoc]
    _ = handed ++ handed' ++ r'.2.2.pending := by rw [heq', List.append_assoc]

theorem passes_hold (v : Volume) (s : Stream) (data : Bytes) :
    Passes v s data (s.hold v data) :=
  ⟨[], .nil _ _, rfl⟩

theorem passes_spill (v : Volume) (s : Stream) : Passes v s [] (s.spill v) := by
  obtain ⟨-, x, hx, hwrites⟩ := v.writes_writeAll s.descriptor s.pending
  exact ⟨x, hwrites, (List.append_nil _).trans hx⟩

theorem conditions_spill (v : Volume) (s : Stream) :
    (s.spill v).2.1.conditions = v.conditions :=
  Volume.conditions_writeAll v s.descriptor s.pending

/-- A spill empties the buffer, or leaves something in it that cannot be written. -/
theorem spill_cases (v : Volume) (s : Stream) :
    (∃ v' d', s.spill v = (.ok (), v', ⟨d', []⟩)) ∨
      ∃ e v' s', s.spill v = (.error e, v', s') ∧ s'.pending ≠ [] := by
  have hresult := (v.writes_writeAll s.descriptor s.pending).1
  cases h : v.writeAll s.descriptor s.pending with
  | mk result rest v' d' =>
      rw [h] at hresult
      cases result with
      | ok =>
          obtain rfl : rest = [] := hresult.1 rfl
          exact Or.inl ⟨v', d', by simp [spill, h]⟩
      | error e =>
          refine Or.inr ⟨e, v', ⟨d', rest⟩, by simp [spill, h], fun hrest => ?_⟩
          cases hresult.2 hrest

/-- Bytes may pass by the buffer only if there is nothing in it. -/
theorem exists_passes_writeThrough (v : Volume) {s : Stream} (hs : s.pending = [])
    (data : Bytes) :
    ∃ taken, TakenOf v (s.writeThrough v data).1 data taken ∧
      Passes v s taken (s.writeThrough v data) := by
  obtain ⟨taken, htaken, hwrites⟩ := v.exists_takenOf_writeAll s.descriptor data
  refine ⟨taken, htaken, taken, hwrites, ?_⟩
  change s.pending ++ taken = taken ++ s.pending
  rw [hs, List.append_nil, List.nil_append]

/-- Once the buffer is empty or has room, bytes go behind all that has been taken before. -/
theorem exists_passes_place (capacity : Nat) (v : Volume) {s : Stream} {data : Bytes}
    (hs : capacity ≤ data.length → s.pending = []) :
    let r := if capacity ≤ data.length then s.writeThrough v data else s.hold v data
    ∃ taken, TakenOf v r.1 data taken ∧ Passes v s taken r := by
  split_ifs with hlarge
  · exact exists_passes_writeThrough v (hs hlarge) data
  · exact ⟨data, takenOf_ok v data, passes_hold v s data⟩

/-- **What passes through a buffer keeps its order**, whether or not the writes succeed. -/
theorem exists_passes_append (capacity : Nat) (v : Volume) (s : Stream) {data : Bytes}
    (hdata : data ≠ []) :
    ∃ taken, TakenOf v (s.append capacity v data).1 data taken ∧
      Passes v s taken (s.append capacity v data) := by
  have hlength : 0 < data.length := List.length_pos_iff.2 hdata
  unfold append
  by_cases hroom : data.length < capacity - s.pending.length
  · rw [if_pos hroom]
    exact ⟨data, takenOf_ok v data, passes_hold v s data⟩
  rw [if_neg hroom]
  by_cases hover : capacity - s.pending.length < data.length
  · rw [if_pos hover]
    have hspill := passes_spill v s
    have hconditions := conditions_spill v s
    obtain ⟨v₁, d₁, h⟩ | ⟨e, v₁, s₁, h, -⟩ := spill_cases v s <;> rw [h] at hspill hconditions ⊢
    · obtain ⟨taken, htaken, hpasses⟩ :=
        exists_passes_place capacity v₁ (s := ⟨d₁, []⟩) fun _ => rfl
      exact ⟨taken, htaken.congr hconditions.symm, hspill.trans hpasses⟩
    · exact ⟨[], takenOf_error v e data, hspill⟩
  · rw [if_neg hover]
    -- The bytes are as many as the buffer has room for, which is all of it if it is no larger.
    refine exists_passes_place capacity v fun hlarge => ?_
    exact List.length_eq_zero_iff.1 (by omega)

end Stream

/-! ### Calls -/

namespace Writer

/-- A call of a writer, with the volume that it finds. -/
structure Call where
  volume : Volume
  action : Action

namespace Call

/-- What a call comes to. -/
def outcome (c : Call) (w : Writer) : Outcome Writer := c.action.apply c.volume w

/-- The bytes that a call makes a writer accept. -/
def accepted (c : Call) (w : Writer) : Bytes :=
  match c.action with
  | .append data => acceptedOf (c.outcome w).result data
  | .flush | .sync | .close => []

/-- The bytes that a call may make a writer take. -/
def Takes (c : Call) (w : Writer) (taken : Bytes) : Prop :=
  match c.action with
  | .append data => TakenOf c.volume (c.outcome w).result data taken
  | .flush | .sync | .close => taken = []

/-- A call hands bytes over: they account for what it does to the volume and to the descriptor,
which a close gives away. -/
inductive HandsOver (c : Call) (w : Writer) : Bytes → Prop
  | closed (hw : w.descriptor? = none) (hvolume : (c.outcome w).volume = c.volume)
      (hwriter : (c.outcome w).writer.descriptor? = none) : HandsOver c w []
  | writes (d d' : Descriptor) {data : Bytes} (hw : w.descriptor? = some d)
      (hwrites : c.volume.Writes d data (c.outcome w).volume d')
      (hwriter : (c.outcome w).writer.descriptor? = if c.action = .close then none else some d') :
      HandsOver c w data

/-- What is taken is what is accepted if files have room for all bytes. -/
theorem Takes.eq_accepted {c : Call} {w : Writer} {taken : Bytes} (h : c.Takes w taken)
    (hv : c.volume.IsUnlimited) : taken = c.accepted w := by
  obtain ⟨v, a⟩ := c
  cases a with
  | append data => exact TakenOf.eq_accepted h (Or.inr hv)
  | flush | sync | close => exact h

end Call

/-- A writer after calls, each of which finds a volume of its own. -/
def afterEach (w : Writer) : List Call → Writer
  | [] => w
  | c :: calls => (c.outcome w).writer.afterEach calls

/-- The bytes of all appends that succeed. -/
def accepted (w : Writer) : List Call → Bytes
  | [] => []
  | c :: calls => c.accepted w ++ (c.outcome w).writer.accepted calls

/-- Calls make a writer take bytes, each of them its part. -/
inductive Takes : Writer → List Call → Bytes → Prop
  | nil (w : Writer) : Takes w [] []
  | cons {w : Writer} {c : Call} {calls : List Call} {x y : Bytes} (h : c.Takes w x)
      (rest : Takes (c.outcome w).writer calls y) : Takes w (c :: calls) (x ++ y)

/-- Calls hand bytes over, each of them its part. -/
inductive HandsOver : Writer → List Call → Bytes → Prop
  | nil (w : Writer) : HandsOver w [] []
  | cons {w : Writer} {c : Call} {calls : List Call} {x y : Bytes} (h : c.HandsOver w x)
      (rest : HandsOver (c.outcome w).writer calls y) : HandsOver w (c :: calls) (x ++ y)

/-! ### Closed writers -/

/-- How a closed writer answers a call. -/
def answerOfClosed (p : Bytes) : Action → Except FileError Unit
  | .append data => if data = [] then .ok () else .error (.closed p)
  | .flush | .sync => .error (.closed p)
  | .close => .ok ()

/-- A closed writer does nothing more. -/
theorem outcome_of_closed {w : Writer} (hw : w.descriptor? = none) (c : Call) :
    c.outcome w = ⟨answerOfClosed w.path c.action, c.volume, w⟩ := by
  obtain ⟨v, a⟩ := c
  cases w with
  | direct w =>
      obtain ⟨p, d, m⟩ := w
      obtain rfl : d = none := hw
      cases a with
      | append data => by_cases hdata : data = [] <;>
          simp [Call.outcome, Action.apply, append, DirectWriter.append, Outcome.map, hdata,
            answerOfClosed, path]
      | flush | sync | close => rfl
  | buffered w =>
      obtain ⟨p, capacity, s, m⟩ := w
      obtain rfl : s = none := Option.map_eq_none_iff.1 hw
      cases a with
      | append data => by_cases hdata : data = [] <;>
          simp [Call.outcome, Action.apply, append, BufferedWriter.append, Outcome.map, hdata,
            answerOfClosed, path]
      | flush | sync | close => rfl

theorem pending_of_closed {w : Writer} (hw : w.descriptor? = none) : w.pending = [] := by
  cases w with
  | direct w => rfl
  | buffered w => rw [pending, BufferedWriter.pending, Option.map_eq_none_iff.1 hw]

theorem accepted_of_closed {w : Writer} (hw : w.descriptor? = none) (c : Call) :
    c.accepted w = [] := by
  rw [Call.accepted, outcome_of_closed hw c]
  cases c.action with
  | append data =>
      rw [answerOfClosed]
      split_ifs with hdata
      · exact hdata
      · rfl
  | flush | sync | close => rfl

/-! ### What is taken is handed over -/

/-- A sync does to a buffered writer and its volume what a flush does. -/
theorem exists_sync_eq (v : Volume) (w : BufferedWriter) :
    ∃ r, w.sync v = ⟨r, (w.flush v).volume, (w.flush v).writer⟩ := by
  unfold BufferedWriter.sync
  split
  · rename_i h
    exact ⟨_, by rw [h]⟩
  · rename_i v' w' h
    rw [h]
    cases w'.stream <;> exact ⟨_, rfl⟩

/-- A close comes to what the spill of the buffer comes to, and the writer is closed. -/
theorem close_of_spilled {v v' : Volume} {s s' : Stream} (h : s.spill v = (.ok (), v', s'))
    (p : Bytes) (capacity : Nat) (m : Bool) :
    (Writer.buffered ⟨p, capacity, some s, m⟩).close v =
      ⟨.ok (), v', .buffered ⟨p, capacity, none, m⟩⟩ := by
  simp [close, BufferedWriter.close, h, Outcome.map]

/-- If the spill fails, what is left is tried once more. -/
theorem close_of_stuck {v v' : Volume} {s s' : Stream} {e : SystemError}
    (h : s.spill v = (.error e, v', s')) (p : Bytes) (capacity : Nat) (m : Bool) :
    (Writer.buffered ⟨p, capacity, some s, m⟩).close v =
      ⟨.error (.refused p e), s'.release v', .buffered ⟨p, capacity, none, m⟩⟩ := by
  simp [close, BufferedWriter.close, h, Outcome.map]

namespace Call

/-- What a call hands over and the writer then holds back is what it held back before and has
taken. -/
def Passes (c : Call) (w : Writer) (taken : Bytes) : Prop :=
  ∃ handed, c.HandsOver w handed ∧
    w.pending ++ taken = handed ++ (c.outcome w).writer.pending

variable {c : Call} {w : Writer} {d : Descriptor}

theorem passes_of_closed (hw : w.descriptor? = none) :
    c.Takes w (c.accepted w) ∧ c.Passes w (c.accepted w) := by
  have hnone := accepted_of_closed hw c
  refine ⟨?_, [], .closed hw ?_ ?_, ?_⟩
  · obtain ⟨v, a⟩ := c
    cases a with
    | append data => exact ⟨hnone ▸ List.nil_prefix, fun _ => rfl⟩
    | flush | sync | close => rfl
  · rw [outcome_of_closed hw c]
  · rw [outcome_of_closed hw c]
    exact hw
  · rw [outcome_of_closed hw c, hnone, List.append_nil, List.nil_append]

/-- A call that leaves all as it is, as one with nothing to write. -/
theorem passes_of_idle (hw : w.descriptor? = some d) (hclose : c.action ≠ .close)
    {r : Except FileError Unit} (h : c.outcome w = ⟨r, c.volume, w⟩) : c.Passes w [] := by
  have hwrites : c.volume.Writes d [] (c.outcome w).volume d := by
    rw [h]
    exact .nil _ _
  refine ⟨[], .writes d d hw hwrites ?_, ?_⟩
  · rw [h, if_neg hclose]
    exact hw
  · rw [h, List.append_nil, List.nil_append]

/-- A call that a buffered writer passes to its stream. -/
theorem passes_of_stream {p : Bytes} {capacity : Nat} {m : Bool} {s : Stream} {r : Stream.Result}
    {answer : Except FileError Unit} {taken : Bytes} (hclose : c.action ≠ .close)
    (h : c.outcome (.buffered ⟨p, capacity, some s, m⟩) =
      ⟨answer, r.2.1, .buffered ⟨p, capacity, some r.2.2, m⟩⟩)
    (hpasses : s.Passes c.volume taken r) :
    c.Passes (.buffered ⟨p, capacity, some s, m⟩) taken := by
  obtain ⟨handed, hwrites, heq⟩ := hpasses
  refine ⟨handed, .writes s.descriptor r.2.2.descriptor rfl ?_ ?_, ?_⟩
  · rwa [h]
  · rw [h, if_neg hclose]
    rfl
  · rw [h]
    exact heq

theorem exists_passes_direct (v : Volume) (p : Bytes) (d : Descriptor) (m : Bool) (a : Action) :
    ∃ taken, Takes ⟨v, a⟩ (.direct ⟨p, some d, m⟩) taken ∧
      Passes ⟨v, a⟩ (.direct ⟨p, some d, m⟩) taken := by
  cases a with
  | append data =>
      by_cases hdata : data = []
      · subst hdata
        exact ⟨[], takenOf_ok v [], passes_of_idle (d := d) rfl (by simp) (r := .ok ()) rfl⟩
      obtain ⟨taken, htaken, hwrites⟩ := v.exists_takenOf_writeAll d data
      have h : outcome ⟨v, .append data⟩ (.direct ⟨p, some d, m⟩) =
          ⟨(v.writeAll d data).result.mapError (.refused p), (v.writeAll d data).volume,
            .direct ⟨p, some (v.writeAll d data).descriptor, m⟩⟩ := by
        simp [outcome, Action.apply, append, DirectWriter.append, hdata, Outcome.map]
      refine ⟨taken, ?_, taken, .writes d (v.writeAll d data).descriptor rfl ?_ ?_, ?_⟩
      · rw [Takes, h]
        exact htaken.mapError _
      · rwa [h]
      · rw [h]
        rfl
      · rw [h]
        exact (List.append_nil taken).symm
  | flush => exact ⟨[], rfl, passes_of_idle (d := d) rfl (by simp) (r := .ok ()) rfl⟩
  | sync => exact ⟨[], rfl, passes_of_idle (d := d) rfl (by simp) rfl⟩
  | close => exact ⟨[], rfl, [], .writes d d rfl (.nil v d) rfl, rfl⟩

theorem exists_passes_buffered (v : Volume) (p : Bytes) (capacity : Nat) (m : Bool) (s : Stream)
    (a : Action)
    (hclose : a = .close →
      (outcome ⟨v, a⟩ (.buffered ⟨p, capacity, some s, m⟩)).result = .ok ()) :
    ∃ taken, Takes ⟨v, a⟩ (.buffered ⟨p, capacity, some s, m⟩) taken ∧
      Passes ⟨v, a⟩ (.buffered ⟨p, capacity, some s, m⟩) taken := by
  cases a with
  | append data =>
      by_cases hdata : data = []
      · subst hdata
        exact ⟨[], takenOf_ok v [],
          passes_of_idle (d := s.descriptor) rfl (by simp) (r := .ok ()) rfl⟩
      obtain ⟨taken, htaken, hpasses⟩ := Stream.exists_passes_append capacity v s hdata
      have h : outcome ⟨v, .append data⟩ (.buffered ⟨p, capacity, some s, m⟩) =
          ((⟨p, capacity, some s, m⟩ : BufferedWriter).ofStream (s.append capacity v data)).map
            .buffered := by
        simp [outcome, Action.apply, append, BufferedWriter.append, hdata]
      refine ⟨taken, ?_, passes_of_stream (by simp) h hpasses⟩
      rw [Takes, h]
      exact htaken.mapError _
  | flush => exact ⟨[], rfl, passes_of_stream (by simp) rfl (Stream.passes_spill v s)⟩
  | sync =>
      obtain ⟨r, hsync⟩ := exists_sync_eq v ⟨p, capacity, some s, m⟩
      have h : outcome ⟨v, .sync⟩ (.buffered ⟨p, capacity, some s, m⟩) =
          ⟨r, (s.spill v).2.1, .buffered ⟨p, capacity, some (s.spill v).2.2, m⟩⟩ := by
        rw [outcome, Action.apply, sync, hsync]
        rfl
      exact ⟨[], rfl, passes_of_stream (by simp) h (Stream.passes_spill v s)⟩
  | close =>
      have hspill := Stream.passes_spill v s
      obtain ⟨v', d', h⟩ | ⟨e, v', s', h, -⟩ := Stream.spill_cases v s
      · obtain ⟨handed, hwrites, heq⟩ := hspill
        have hout : outcome ⟨v, .close⟩ (.buffered ⟨p, capacity, some s, m⟩) =
            ⟨.ok (), v', .buffered ⟨p, capacity, none, m⟩⟩ := close_of_spilled h p capacity m
        rw [h] at hwrites heq
        refine ⟨[], rfl, handed, .writes s.descriptor d' rfl ?_ ?_, ?_⟩ <;> rw [hout]
        · exact hwrites
        · rfl
        · exact heq
      · have hok : ((Writer.buffered ⟨p, capacity, some s, m⟩).close v).result = .ok () :=
          hclose rfl
        rw [close_of_stuck h p capacity m] at hok
        cases hok

/-- **No call loses bytes or mixes them up**, but a close that fails. -/
theorem exists_passes (h : c.action = .close → (c.outcome w).result = .ok ()) :
    ∃ taken, c.Takes w taken ∧ c.Passes w taken := by
  obtain ⟨v, a⟩ := c
  match w with
  | .direct ⟨p, none, m⟩ => exact ⟨_, passes_of_closed rfl⟩
  | .direct ⟨p, some d, m⟩ => exact exists_passes_direct v p d m a
  | .buffered ⟨p, capacity, none, m⟩ => exact ⟨_, passes_of_closed rfl⟩
  | .buffered ⟨p, capacity, some s, m⟩ => exact exists_passes_buffered v p capacity m s a h

/-- A close that fails hands over what it can, and that in two attempts. -/
theorem exists_handsOver_of_stuck {v v' : Volume} {s s' : Stream} {e : SystemError}
    (h : s.spill v = (.error e, v', s')) (p : Bytes) (capacity : Nat) (m : Bool) :
    ∃ handed, HandsOver ⟨v, .close⟩ (.buffered ⟨p, capacity, some s, m⟩) handed := by
  have hfirst := Stream.passes_spill v s
  rw [h] at hfirst
  obtain ⟨handed, hwrites, -⟩ := hfirst.trans (Stream.passes_spill v' s')
  have hout : outcome ⟨v, .close⟩ (.buffered ⟨p, capacity, some s, m⟩) =
      ⟨.error (.refused p e), s'.release v', .buffered ⟨p, capacity, none, m⟩⟩ :=
    close_of_stuck h p capacity m
  refine ⟨handed, .writes s.descriptor (s'.spill v').2.2.descriptor rfl ?_ ?_⟩ <;> rw [hout]
  · exact hwrites
  · rfl

/-- All that a call does to a volume and a descriptor is to hand bytes over. -/
theorem exists_handsOver_outcome (c : Call) (w : Writer) : ∃ handed, c.HandsOver w handed := by
  by_cases h : c.action = .close → (c.outcome w).result = .ok ()
  · obtain ⟨-, -, handed, hhands, -⟩ := exists_passes h
    exact ⟨handed, hhands⟩
  · obtain ⟨v, a⟩ := c
    obtain ⟨hclose, herror⟩ := Classical.not_imp.1 h
    obtain rfl : a = .close := hclose
    match w with
    | .direct w => exact absurd rfl herror
    | .buffered ⟨p, capacity, none, m⟩ => exact absurd rfl herror
    | .buffered ⟨p, capacity, some s, m⟩ =>
        obtain ⟨v', d', hspill⟩ | ⟨e, v', s', hspill, -⟩ := Stream.spill_cases v s
        · exact absurd (congrArg Outcome.result (close_of_spilled hspill p capacity m)) herror
        · exact exists_handsOver_of_stuck hspill p capacity m

end Call

/-! ### Calls in a row -/

variable {w : Writer} {d : Descriptor} {calls : List Call} {x y : Bytes}

/-- What is taken by calls is what is accepted by them if files have room for all bytes. -/
theorem Takes.eq_accepted {taken : Bytes} (h : w.Takes calls taken)
    (hv : ∀ c ∈ calls, c.volume.IsUnlimited) : taken = w.accepted calls := by
  induction h with
  | nil => rfl
  | cons hcall _ ih =>
      obtain ⟨hc, hv⟩ := List.forall_mem_cons.1 hv
      rw [hcall.eq_accepted hc, ih hv, accepted]

end Writer

end RecordLog
