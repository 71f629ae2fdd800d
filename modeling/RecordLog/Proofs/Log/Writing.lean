import RecordLog.Proofs.Log.Record
import RecordLog.Proofs.Writer.Run

/-!
# Logs while they are written

Records are handed to a writer one after the other, with flushes and syncs between them, and the
writer has its file for itself. What has come to the file is always a first part of the codes of
the records, though its end may lie anywhere, since a buffered writer writes when its buffer is
full and not when a record ends. So a log can be read at every moment, and gives nothing but records
that were written.

## Main definitions

* `RecordLog.Record.Call`, with `Call.action?`, and `RecordLog.Record.written`.
* `RecordLog.Record.ReadsBackWhile`.

## Main results

* `RecordLog.Record.readsBack_of_newWriter`.
-/

namespace RecordLog.Record

open Session (Action)
open Decoder (readLog)

/-! ### Calls -/

/-- What can be done with a log that is being written. -/
inductive Call
  | append (r : Record)
  | flush
  | sync
  | close
  deriving DecidableEq, Repr

/-- The call of the writer. A record is put into an empty buffer, unless its key is too long, and
what is there then is handed over in one append. -/
def Call.action? : Call → Option Action
  | .append r => r.encode?.map .append
  | .flush => some .flush
  | .sync => some .sync
  | .close => some .close

/-- The call of the writer when the code of a record is known. -/
def Call.action : Call → Action
  | .append r => .append r.encode
  | .flush => .flush
  | .sync => .sync
  | .close => .close

theorem Call.action?_eq {a : Call} (h : ∀ r, a = .append r → r.Fits) :
    a.action? = some a.action := by
  cases a with
  | append r => rw [action?, encode?_eq (h r rfl), Option.map_some, action]
  | flush | sync | close => rfl

theorem mapM_action? {calls : List Call} (h : ∀ r, .append r ∈ calls → r.Fits) :
    calls.mapM Call.action? = some (calls.map Call.action) := by
  induction calls with
  | nil => rfl
  | cons a calls ih =>
      have hhead : a.action? = some a.action :=
        Call.action?_eq fun r hr => h r (hr ▸ List.mem_cons_self)
      have htail := ih fun r hr => h r (List.mem_cons_of_mem _ hr)
      simp [hhead, htail]

/-- The records that are appended before the log is closed. -/
def written : List Call → List Record
  | [] => []
  | .append r :: calls => r :: written calls
  | .close :: _ => []
  | .flush :: calls | .sync :: calls => written calls

theorem append_mem_of_mem_written {r : Record} {calls : List Call} (h : r ∈ written calls) :
    .append r ∈ calls := by
  induction calls with
  | nil => simp [written] at h
  | cons a calls ih =>
      cases a with
      | append r' =>
          rw [written, List.mem_cons] at h
          rcases h with rfl | h
          · exact List.mem_cons_self
          · exact List.mem_cons_of_mem _ (ih h)
      | flush | sync => exact List.mem_cons_of_mem _ (ih h)
      | close => simp [written] at h

/-- What an open intake has taken in is what it had and the codes of the records. -/
theorem taken_after (p taken : Bytes) (synced : Except SystemError Unit) (calls : List Call) :
    ((Intake.mk p taken true synced).after (calls.map Call.action)).2.taken =
      taken ++ (written calls).flatMap encode := by
  induction calls generalizing taken with
  | nil => simp [written]
  | cons a calls ih =>
      rw [List.map_cons, Intake.snd_after_cons]
      cases a with
      | append r =>
          have hcall : ((Intake.mk p taken true synced).call (Call.append r).action).2 =
              ⟨p, taken ++ r.encode, true, synced⟩ := by
            simp [Call.action, Intake.call, r.encode_ne_nil]
          rw [hcall, ih, written, List.flatMap_cons, List.append_assoc]
      | flush | sync => exact ih taken
      | close =>
          rw [Intake.snd_after_of_closed rfl, written, List.flatMap_nil, List.append_nil]
          rfl

theorem close_mem_map_action_iff {calls : List Call} :
    Action.close ∈ calls.map Call.action ↔ Call.close ∈ calls := by
  rw [List.mem_map]
  constructor
  · rintro ⟨a, ha, haction⟩
    cases a with
    | close => exact ha
    | append | flush | sync => cases haction
  · intro h
    exact ⟨.close, h, rfl⟩

/-! ### What has come to the file -/

/-- While a call is under way, the file grows from one content to another, by a part of the new
bytes at a time. Whatever it holds meanwhile, the records read back from it. -/
def ReadsBackWhile (rs : List Record) (before : Bytes) (after : Option Bytes) : Prop :=
  ∃ c, after = some c ∧ before <+: c ∧ ∀ x, before <+: x → x <+: c → ∃ k, ReadsBack rs x k

theorem readsBackWhile_of_prefix {rs : List Record} (hfit : ∀ r ∈ rs, r.Fits) {before c : Bytes}
    (hgrows : before <+: c) (hc : c <+: rs.flatMap encode) : ReadsBackWhile rs before (some c) :=
  ⟨c, rfl, hgrows, fun _ _ hx => exists_readsBack_of_prefix hfit (hx.trans hc)⟩

/-- What is in the file of a log is a first part of the codes of the records. -/
theorem prefix_written {v : Volume} {id : Nat} {c p : Bytes} {w : Writer} {calls : List Call}
    {synced : Except SystemError Unit}
    (h : w.Realizes v id c
      (Intake.after { path := p, synced := synced } (calls.map Call.action)).2) :
    c <+: (written calls).flatMap encode := by
  have htaken := taken_after p [] synced calls
  rw [List.nil_append] at htaken
  rw [← htaken, ← h.append_pending]
  exact List.prefix_append _ _

/-- The length of all that the records come to. -/
def size (rs : List Record) : Nat := (rs.flatMap encode).length

/-- **A log can be read at every moment.** Let records be put into a buffer each and appended to a
new writer of any backing on a regular file with room for all of them, with flushes and syncs
between them, and perhaps a close. Then what reads back from the file is the first of the records,
as many as are there in whole, and then the end of the log, or corruption if there is more: after
the calls, while a further call is under way, and while the writer is given up instead. After a
flush, a sync or a close these are all the records, and the log ends behind them. As long as the log
is not closed, no call fails but a sync that the system refuses. -/
theorem readsBack_of_newWriter {v v' : Volume} {b : Backing} {p : Bytes} {w : Writer} {id : Nat}
    (hopen : b.newWriter v p = .ok (v', w)) (hfile : w.IsOnFile id) {calls : List Call}
    (hfit : ∀ r, .append r ∈ calls → r.Fits) (hroom : v'.CanHold (size (written calls))) :
    ∃ actions, calls.mapM Call.action? = some actions ∧
      let o := w.after v' actions
      ∃ c, o.volume.content? id = some c ∧ (∃ k, ReadsBack (written calls) c k) ∧
        (∀ a : Call, (∀ r, a = .append r → r.Fits) → v'.CanHold (size (written (calls ++ [a]))) →
          ∃ action, a.action? = some action ∧
            ReadsBackWhile (written (calls ++ [a])) c
              ((action.apply o.volume o.writer).volume.content? id)) ∧
        ReadsBackWhile (written calls) c ((o.writer.drop o.volume).content? id) ∧
        (∀ action ∈ actions.getLast?, action.Settles →
          ReadsBack (written calls) c (written calls).length ∧ (readLog ⟨c⟩).2 = .ok ()) ∧
        (.close ∉ calls →
          (.sync ∈ actions.getLast? → v'.conditions.synced w.syncsMetadata = .ok ()) →
          o.result = .ok ()) := by
  refine ⟨_, mapM_action? hfit, ?_⟩
  intro o
  have hnew := Backing.realizes_of_newWriter hopen hfile
  have htaken := taken_after p [] (v'.conditions.synced w.syncsMetadata)
  simp only [List.nil_append] at htaken
  have hroom' := hroom
  rw [size, ← htaken] at hroom'
  obtain ⟨c, hresult, -, hconditions, hrealizes⟩ := hnew.after hroom'
  have hwritten : ∀ r ∈ written calls, r.Fits := fun r hr =>
    hfit r (append_mem_of_mem_written hr)
  have hprefix := prefix_written hrealizes
  refine ⟨c, hrealizes.content_eq, exists_readsBack_of_prefix hwritten hprefix, ?_, ?_, ?_, ?_⟩
  · intro a ha hnextRoom
    -- The call comes to the same as a row of calls that is longer by one.
    rw [size, ← htaken, List.map_append, List.map_singleton, Intake.after_concat] at hnextRoom
    obtain ⟨c', -, hgrows, -, hrealizes'⟩ :=
      hrealizes.apply a.action (hnextRoom.congr hconditions)
    rw [← Intake.after_concat, ← List.map_singleton, ← List.map_append] at hrealizes'
    have hnext : ∀ r ∈ written (calls ++ [a]), r.Fits := by
      intro r hr
      rcases List.mem_append.1 (append_mem_of_mem_written hr) with hmem | hmem
      · exact hfit r hmem
      · exact ha r (List.mem_singleton.1 hmem).symm
    refine ⟨_, Call.action?_eq ha, ?_⟩
    rw [hrealizes'.content_eq]
    exact readsBackWhile_of_prefix hnext hgrows (prefix_written hrealizes')
  · obtain ⟨hdrop, hgrows⟩ := hrealizes.drop (hroom'.congr hconditions)
    rw [htaken] at hdrop hgrows
    rw [hdrop]
    exact readsBackWhile_of_prefix hwritten hgrows List.prefix_rfl
  · intro action hlast hsettles
    have hnone := hnew.pending_after hroom' hlast hsettles
    have hall := hrealizes.append_pending
    rw [hnone, List.append_nil, htaken] at hall
    rw [hall]
    have hreads := readsBack_length hwritten
    refine ⟨hreads, hreads.ends_iff.2 ?_⟩
    rw [List.take_length]
  · intro hclose hsynced
    rw [← close_mem_map_action_iff] at hclose
    exact hresult.trans ((Intake.after_of_open rfl hclose).1 hsynced)

/-- A log that is made through a buffer of four bytes, so that one record waits there for the next,
which is written past it, in a file that has just the room for it. -/
theorem readsBack_of_newWriter_past_buffer :
    ∃ (v v' : Volume) (w : Writer) (calls : List Call),
      v = ⟨[([], .directory 0o755)], [], [], { sizeLimit := some 10 }⟩ ∧
      calls = [.append ⟨1, [7]⟩, .append ⟨300, [1, 2]⟩, .append ⟨2, []⟩, .sync] ∧
      Backing.newWriter v [0x61] (.buffered {} { bufferCapacity := 4 }) = .ok (v', w) ∧
      w.IsOnFile 0 ∧ (∀ r, .append r ∈ calls → r.Fits) ∧ v'.CanHold (size (written calls)) ∧
      ∃ actions, calls.mapM Call.action? = some actions ∧
        let o := w.after v' actions
        ∃ c, o.volume.content? 0 = some c ∧ (∃ k, ReadsBack (written calls) c k) ∧
          (∀ a : Call, (∀ r, a = .append r → r.Fits) →
            v'.CanHold (size (written (calls ++ [a]))) → ∃ action, a.action? = some action ∧
              ReadsBackWhile (written (calls ++ [a])) c
                ((action.apply o.volume o.writer).volume.content? 0)) ∧
          ReadsBackWhile (written calls) c ((o.writer.drop o.volume).content? 0) ∧
          (∀ action ∈ actions.getLast?, action.Settles →
            ReadsBack (written calls) c (written calls).length ∧ (readLog ⟨c⟩).2 = .ok ()) ∧
          (.close ∉ calls →
            (.sync ∈ actions.getLast? → v'.conditions.synced w.syncsMetadata = .ok ()) →
            o.result = .ok ()) := by
  have hfit : ∀ r, Call.append r ∈
      [Call.append ⟨1, [7]⟩, .append ⟨300, [1, 2]⟩, .append ⟨2, []⟩, .sync] → r.Fits := by
    intro r hr
    simp only [List.mem_cons, List.not_mem_nil, or_false, Call.append.injEq, reduceCtorEq] at hr
    rcases hr with rfl | rfl | rfl <;> simp [Fits, UInt32.size]
  let v' : Volume := ⟨[([], .directory 0o755), ([[0x61]], .file 0)], [⟨0o644, []⟩], [],
    { sizeLimit := some 10 }⟩
  have hroom : v'.CanHold (size (written
      [Call.append ⟨1, [7]⟩, .append ⟨300, [1, 2]⟩, .append ⟨2, []⟩, .sync])) := by
    rintro _ ⟨⟩
    cbv
  exact ⟨_, v', .buffered ⟨[0x61], 4, some ⟨.atEnd 0 [], []⟩, false⟩, _, rfl, rfl, rfl,
    ⟨_, rfl, rfl⟩, hfit, hroom,
    readsBack_of_newWriter (b := .buffered {} { bufferCapacity := 4 })
      (v := ⟨[([], .directory 0o755)], [], [], { sizeLimit := some 10 }⟩) (p := [0x61]) rfl
      ⟨_, rfl, rfl⟩ hfit hroom⟩

end RecordLog.Record
