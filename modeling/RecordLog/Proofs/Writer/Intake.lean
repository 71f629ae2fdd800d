import Mathlib.Data.List.Induction
import RecordLog.Proofs.Writer.Stream
import RecordLog.Session

/-!
# What a writer takes in

Seen from outside, a writer takes in bytes in order until it is closed. This is its *intake*; it
knows neither of descriptors nor of buffers, and so is the same for every kind of writer. A writer
that has a regular file for itself *realizes* its intake: what the file holds and what the writer
still holds back are together what has been taken in, and an open writer has its descriptor behind
all that the file holds. As long as the file has room for all that is taken in, every call keeps
this, is answered as the intake answers, and only adds to the file.

## Main definitions

* `RecordLog.Intake`, with `Intake.call` and `Intake.after`.
* `RecordLog.Writer.Realizes` and `RecordLog.Writer.Follows`.

## Main results

* `RecordLog.Writer.Realizes.apply`: a call keeps a writer realizing its intake.
* `RecordLog.Writer.Realizes.drop`: a writer that is given up has brought all to its file.
-/

namespace RecordLog

open Session (Action)

/-- What a writer has taken in so far, whether it still takes more, and how it is told that what it
has written is durable. -/
structure Intake where
  path : Bytes
  taken : Bytes := []
  isOpen : Bool := true
  synced : Except SystemError Unit := .ok ()

namespace Intake

/-- How a call is answered, and the intake after it. -/
def call (s : Intake) : Action → Except FileError Unit × Intake
  | .append data =>
    if data = [] then (.ok (), s)
    else if s.isOpen then (.ok (), { s with taken := s.taken ++ data })
    else (.error (.closed s.path), s)
  | .flush => if s.isOpen then (.ok (), s) else (.error (.closed s.path), s)
  | .sync =>
    if s.isOpen then (s.synced.mapError (.unsynced s.path), s)
    else (.error (.closed s.path), s)
  | .close => (.ok (), { s with isOpen := false })

/-- How the last of a row of calls is answered, and the intake after it. -/
def after (s : Intake) (calls : List Action) : Except FileError Unit × Intake :=
  calls.foldl (fun r a => r.2.call a) (.ok (), s)

@[simp] theorem after_nil (s : Intake) : s.after [] = (.ok (), s) := rfl

@[simp] theorem after_concat (s : Intake) (calls : List Action) (a : Action) :
    s.after (calls ++ [a]) = (s.after calls).2.call a := by
  simp [after]

/-- How a call before has been answered does not matter for what is taken in. -/
theorem snd_foldl_call (s : Intake) (calls : List Action) (r r' : Except FileError Unit) :
    (calls.foldl (fun r a => r.2.call a) (r, s)).2 =
      (calls.foldl (fun r a => r.2.call a) (r', s)).2 := by
  cases calls with
  | nil => rfl
  | cons a calls => rfl

theorem snd_after_cons (s : Intake) (a : Action) (calls : List Action) :
    (s.after (a :: calls)).2 = ((s.call a).2.after calls).2 :=
  snd_foldl_call (s.call a).2 calls _ _

/-- What has been taken in stays. -/
theorem taken_prefix_call (s : Intake) (a : Action) : s.taken <+: (s.call a).2.taken := by
  cases a with
  | append data =>
      rw [call]
      split_ifs <;> simp
  | flush | sync =>
      rw [call]
      split_ifs <;> exact List.prefix_rfl
  | close => exact List.prefix_rfl

/-- As long as it is not closed, an intake refuses nothing, but for syncs that fail. -/
theorem after_of_open {s : Intake} (h : s.isOpen = true) {calls : List Action}
    (hclose : .close ∉ calls) :
    ((.sync ∈ calls.getLast? → s.synced = .ok ()) → (s.after calls).1 = .ok ()) ∧
      (s.after calls).2.isOpen = true ∧ (s.after calls).2.synced = s.synced := by
  induction calls using List.reverseRecOn with
  | nil => exact ⟨fun _ => rfl, h, rfl⟩
  | append_singleton calls a ih =>
      obtain ⟨-, hopen, hsynced⟩ := ih fun hmem => hclose (List.mem_append_left _ hmem)
      rw [after_concat, List.getLast?_concat]
      cases a with
      | append data =>
          rw [call]
          split_ifs
          · exact ⟨fun _ => rfl, hopen, hsynced⟩
          · exact ⟨fun _ => rfl, hopen, hsynced⟩
      | flush => simp [call, hopen, hsynced]
      | sync =>
          rw [call, if_pos hopen, hsynced]
          exact ⟨fun hok => by rw [hok rfl]; rfl, hopen, rfl⟩
      | close => simp at hclose

/-- Once closed, nothing is taken in any more. -/
theorem snd_after_of_closed {s : Intake} (h : s.isOpen = false) (calls : List Action) :
    (s.after calls).2 = s := by
  induction calls using List.reverseRecOn with
  | nil => rfl
  | append_singleton calls a ih =>
      rw [after_concat, ih]
      cases a with
      | append data =>
          rw [call]
          split_ifs <;> simp_all
      | flush | sync => simp [call, h]
      | close =>
          cases s
          cases h
          rfl

end Intake

namespace Writer

/-- A writer with a file of its own, which holds `content`, does what an intake says: an open one
has its descriptor behind the content, and what it holds back is what is missing there. -/
inductive Realizes (v : Volume) (id : Nat) (content : Bytes) : Writer → Intake → Prop
  | direct (p : Bytes) (m : Bool) {r : Except SystemError Unit} (h : v.content? id = some content)
      (hr : v.conditions.synced m = r) :
      Realizes v id content (.direct ⟨p, some (.atEnd id content), m⟩) ⟨p, content, true, r⟩
  | directClosed (p : Bytes) (m : Bool) (r : Except SystemError Unit)
      (h : v.content? id = some content) :
      Realizes v id content (.direct ⟨p, none, m⟩) ⟨p, content, false, r⟩
  | buffered (p : Bytes) (capacity : Nat) (m : Bool) (b : Bytes) {r : Except SystemError Unit}
      (h : v.content? id = some content) (hr : v.conditions.synced m = r) :
      Realizes v id content (.buffered ⟨p, capacity, some ⟨.atEnd id content, b⟩, m⟩)
        ⟨p, content ++ b, true, r⟩
  | bufferedClosed (p : Bytes) (capacity : Nat) (m : Bool) (r : Except SystemError Unit)
      (h : v.content? id = some content) :
      Realizes v id content (.buffered ⟨p, capacity, none, m⟩) ⟨p, content, false, r⟩

variable {v : Volume} {id : Nat} {c : Bytes} {w : Writer} {s : Intake}

theorem Realizes.content_eq (h : Realizes v id c w s) : v.content? id = some c := by
  cases h <;> assumption

/-- What the file holds and what the writer holds back are what has been taken in. -/
theorem Realizes.append_pending (h : Realizes v id c w s) : c ++ w.pending = s.taken := by
  cases h <;> simp [Writer.pending, BufferedWriter.pending]

/-- What a call comes to on a volume where it finds a file holding `content`: it is answered as an
intake answers, what the file holds is kept, and the writer does what the intake then says. -/
structure Follows (v : Volume) (o : Outcome Writer) (id : Nat) (content content' : Bytes)
    (r : Except FileError Unit × Intake) : Prop where
  result_eq : o.result = r.1
  grows : content <+: content'
  conditions_eq : o.volume.conditions = v.conditions
  realizes : Realizes o.volume id content' o.writer r.2

theorem Follows.refl (h : Realizes v id c w s) (r : Except FileError Unit) :
    Follows v ⟨r, v, w⟩ id c c (r, s) :=
  ⟨rfl, List.prefix_rfl, rfl, h⟩

/-! ### Calls -/

theorem Realizes.append (h : Realizes v id c w s) {data : Bytes}
    (hroom : v.CanHold (s.call (.append data)).2.taken.length) :
    ∃ c', Follows v (w.append v data) id c c' (s.call (.append data)) := by
  by_cases hdata : data = []
  · -- Nothing is appended, open or not.
    refine ⟨c, ?_⟩
    cases h <;> simp only [Writer.append, DirectWriter.append, BufferedWriter.append, hdata,
      if_true, Intake.call, Outcome.map] <;> apply Follows.refl <;> constructor <;> assumption
  · cases h with
    | direct p m h hr =>
        simp only [Intake.call, hdata, if_false, if_true] at hroom
        obtain ⟨v', hwrite, hv', hconditions⟩ := Volume.writeAll_atEnd h hroom
        refine ⟨c ++ data, ?_, List.prefix_append _ _, ?_, ?_⟩
        · simp [Writer.append, DirectWriter.append, hdata, hwrite, Outcome.map, Intake.call,
            Except.mapError]
        · simp [Writer.append, DirectWriter.append, hdata, hwrite, Outcome.map, hconditions]
        · simp only [Writer.append, DirectWriter.append, hdata, hwrite, Outcome.map, Intake.call,
            if_false, if_true]
          exact .direct p m hv' (by rw [hconditions, hr])
    | directClosed p m r h =>
        refine ⟨c, ?_⟩
        simp only [Writer.append, DirectWriter.append, hdata, Outcome.map, Intake.call, if_false]
        exact Follows.refl (.directClosed p m r h) _
    | buffered p capacity m b h hr =>
        simp only [Intake.call, hdata, if_false, if_true] at hroom
        obtain ⟨v', happend, hv', hconditions⟩ := Stream.append_atEnd h capacity b hdata hroom
        refine ⟨_, ?_, Stream.prefix_divide capacity c b data, ?_, ?_⟩
        · simp [Writer.append, BufferedWriter.append, BufferedWriter.ofStream, hdata, happend,
            Outcome.map, Intake.call, Except.mapError]
        · simp [Writer.append, BufferedWriter.append, BufferedWriter.ofStream, hdata, happend,
            Outcome.map, hconditions]
        · simp only [Writer.append, BufferedWriter.append, BufferedWriter.ofStream, hdata, happend,
            Outcome.map, Intake.call, if_false, if_true, ← Stream.divide_append capacity c b data]
          exact .buffered p capacity m _ hv' (by rw [hconditions, hr])
    | bufferedClosed p capacity m r h =>
        refine ⟨c, ?_⟩
        simp only [Writer.append, BufferedWriter.append, hdata, Outcome.map, Intake.call, if_false]
        exact Follows.refl (.bufferedClosed p capacity m r h) _

theorem Realizes.buffered_nil (p : Bytes) (capacity : Nat) (m : Bool) {r : Except SystemError Unit}
    (h : v.content? id = some c) (hr : v.conditions.synced m = r) :
    Realizes v id c (.buffered ⟨p, capacity, some ⟨.atEnd id c, []⟩, m⟩) ⟨p, c, true, r⟩ := by
  have hempty := Realizes.buffered p capacity m [] h hr
  rwa [List.append_nil] at hempty

/-- A flush brings the buffer behind what the file holds. -/
theorem flush_atEnd (p : Bytes) (capacity : Nat) (m : Bool) {b : Bytes}
    (h : v.content? id = some c) (hroom : v.CanHold (c ++ b).length) :
    ∃ v', BufferedWriter.flush v ⟨p, capacity, some ⟨.atEnd id c, b⟩, m⟩ =
        ⟨.ok (), v', ⟨p, capacity, some ⟨.atEnd id (c ++ b), []⟩, m⟩⟩ ∧
      v'.content? id = some (c ++ b) ∧ v'.conditions = v.conditions := by
  obtain ⟨v', hspill, hv'⟩ := Stream.spill_atEnd h hroom
  exact ⟨v', by simp [BufferedWriter.flush, BufferedWriter.ofStream, hspill, Except.mapError], hv'⟩

/-- So does a sync, which is then answered as the conditions say. -/
theorem sync_atEnd (p : Bytes) (capacity : Nat) (m : Bool) {b : Bytes}
    (h : v.content? id = some c) (hroom : v.CanHold (c ++ b).length) :
    ∃ v', BufferedWriter.sync v ⟨p, capacity, some ⟨.atEnd id c, b⟩, m⟩ =
        ⟨(v.conditions.synced m).mapError (.unsynced p), v',
          ⟨p, capacity, some ⟨.atEnd id (c ++ b), []⟩, m⟩⟩ ∧
      v'.content? id = some (c ++ b) ∧ v'.conditions = v.conditions := by
  obtain ⟨v', hflush, hv', hconditions⟩ := flush_atEnd p capacity m h hroom
  refine ⟨v', ?_, hv', hconditions⟩
  simp [BufferedWriter.sync, hflush, Volume.sync_atEnd, hconditions]

theorem Realizes.flush (h : Realizes v id c w s) (hroom : v.CanHold s.taken.length) :
    ∃ c', Follows v (w.flush v) id c c' (s.call .flush) := by
  cases h with
  | direct p m h hr => exact ⟨c, Follows.refl (.direct p m h hr) _⟩
  | directClosed p m r h => exact ⟨c, Follows.refl (.directClosed p m r h) _⟩
  | buffered p capacity m b h hr =>
      obtain ⟨v', hflush, hv', hconditions⟩ := flush_atEnd p capacity m h hroom
      refine ⟨c ++ b, ?_, List.prefix_append _ _, ?_, ?_⟩
      · simp [Writer.flush, hflush, Outcome.map, Intake.call]
      · simp [Writer.flush, hflush, Outcome.map, hconditions]
      · simpa [Writer.flush, hflush, Outcome.map, Intake.call] using
          Realizes.buffered_nil p capacity m hv' (by rw [hconditions, hr])
  | bufferedClosed p capacity m r h => exact ⟨c, Follows.refl (.bufferedClosed p capacity m r h) _⟩

theorem Realizes.sync (h : Realizes v id c w s) (hroom : v.CanHold s.taken.length) :
    ∃ c', Follows v (w.sync v) id c c' (s.call .sync) := by
  cases h with
  | direct p m h hr =>
      refine ⟨c, ?_⟩
      simp only [Writer.sync, DirectWriter.sync, Volume.sync_atEnd, hr, Outcome.map, Intake.call,
        if_true]
      exact Follows.refl (.direct p m h hr) _
  | directClosed p m r h => exact ⟨c, Follows.refl (.directClosed p m r h) _⟩
  | buffered p capacity m b h hr =>
      obtain ⟨v', hsync, hv', hconditions⟩ := sync_atEnd p capacity m h hroom
      refine ⟨c ++ b, ?_, List.prefix_append _ _, ?_, ?_⟩
      · simp [Writer.sync, hsync, Outcome.map, Intake.call, hr]
      · simp [Writer.sync, hsync, Outcome.map, hconditions]
      · simpa [Writer.sync, hsync, Outcome.map, Intake.call] using
          Realizes.buffered_nil p capacity m hv' (by rw [hconditions, hr])
  | bufferedClosed p capacity m r h => exact ⟨c, Follows.refl (.bufferedClosed p capacity m r h) _⟩

theorem Realizes.close (h : Realizes v id c w s) (hroom : v.CanHold s.taken.length) :
    ∃ c', Follows v (w.close v) id c c' (s.call .close) := by
  cases h with
  | direct p m h hr => exact ⟨c, Follows.refl (.directClosed p m _ h) _⟩
  | directClosed p m r h => exact ⟨c, Follows.refl (.directClosed p m r h) _⟩
  | buffered p capacity m b h hr =>
      obtain ⟨v', hspill, hv', hconditions⟩ := Stream.spill_atEnd h hroom
      refine ⟨c ++ b, ?_, List.prefix_append _ _, ?_, ?_⟩
      · simp [Writer.close, BufferedWriter.close, hspill, Outcome.map, Intake.call]
      · simp [Writer.close, BufferedWriter.close, hspill, Outcome.map, hconditions]
      · simpa [Writer.close, BufferedWriter.close, hspill, Outcome.map, Intake.call] using
          Realizes.bufferedClosed p capacity m _ hv'
  | bufferedClosed p capacity m r h => exact ⟨c, Follows.refl (.bufferedClosed p capacity m r h) _⟩

/-- **A call keeps a writer doing what its intake says**, if its file has room for all that has been
taken in after it. -/
theorem Realizes.apply (h : Realizes v id c w s) (a : Action)
    (hroom : v.CanHold (s.call a).2.taken.length) :
    ∃ c', Follows v (a.apply v w) id c c' (s.call a) := by
  have hbefore : v.CanHold s.taken.length := hroom.mono (s.taken_prefix_call a).length_le
  cases a with
  | append data => exact h.append hroom
  | flush => exact h.flush hbefore
  | sync => exact h.sync hbefore
  | close => exact h.close hbefore

/-- A writer that is given up has brought all that it took in to its file. -/
theorem Realizes.drop (h : Realizes v id c w s) (hroom : v.CanHold s.taken.length) :
    (w.drop v).content? id = some s.taken ∧ c <+: s.taken := by
  cases h with
  | direct p m h => exact ⟨h, List.prefix_rfl⟩
  | directClosed p m r h => exact ⟨h, List.prefix_rfl⟩
  | buffered p capacity m b h =>
      obtain ⟨v', hspill, hv', -⟩ := Stream.spill_atEnd h hroom
      refine ⟨?_, List.prefix_append _ _⟩
      simpa [Writer.drop, BufferedWriter.drop, hspill] using hv'
  | bufferedClosed p capacity m r h => exact ⟨h, List.prefix_rfl⟩

end Writer

end RecordLog
