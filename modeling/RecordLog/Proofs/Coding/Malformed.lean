import RecordLog.Proofs.Coding.Access

/-!
# Reading whatever the bytes are

A script reads fields from bytes that need not be the code of anything, goes inside length-prefixed
values, and keeps decoders and comes back to them. Wherever it stands, what remains is a contiguous
piece of the bytes that it began with. A step that fails reports corruption and changes nothing; a
read that succeeds takes at least one byte from the front. So a loop of reads ends after at most as
many of them as there are bytes.

## Main definitions

* `RecordLog.Cursor.step` and `RecordLog.Cursor.run`, scripts by accesses that can go wrong.
* `RecordLog.Decoder.IsTaken`, what a read that succeeds has done.
* `RecordLog.Decoder.Script.after` and `RecordLog.Decoder.Script.Step.ReadsOn`.

## Main results

* `RecordLog.Cursor.run_eq`: no access of a script goes wrong.
* `RecordLog.Decoder.isTaken_of_read`.
* `RecordLog.Decoder.Script.countP_run_le`: how many reads succeed.
* `RecordLog.Decoder.Script.steps_are_safe`.
-/

namespace RecordLog

open Decoder (Script)
open Decoder.Script (Step)

/-! ### Scripts by accesses -/

namespace Cursor

/-- What a step of a script does. Only steps that read make accesses. -/
def step (s : Script) : Step → Except Fault (Except Decoder.Fault (Option Field) × Script)
  | .read k => do
    let (r, rest) ← read ⟨s.current.remaining⟩ k
    return (r.map some, { s with current := ⟨rest.bytes⟩ })
  | .enter => do
    match ← read ⟨s.current.remaining⟩ .lengthPrefixed with
    | (.ok (.lengthPrefixed b), _) =>
      return (.ok (some (.lengthPrefixed b)), { s with current := ⟨b⟩ })
    | (r, rest) => return (r.map some, { s with current := ⟨rest.bytes⟩ })
  | .finish => .ok (s.step .finish)
  | .save => .ok (s.step .save)
  | .restore => .ok (s.step .restore)

/-- What the steps of a script give, each with the decoder after it, unless an access goes wrong. -/
def run (s : Script) : List Step →
    Except Fault (List (Except Decoder.Fault (Option Field) × Decoder))
  | [] => .ok []
  | a :: rest => do
    let (r, s) ← step s a
    let answers ← run s rest
    return (r, s.current) :: answers

theorem step_eq (s : Script) (a : Step) : step s a = .ok (s.step a) := by
  cases a with
  | read k =>
      rw [step, read_eq, Script.step]
      rcases s.current.read k with ⟨_ | f, d⟩ <;> rfl
  | enter =>
      rw [step, read_eq, Script.step]
      rcases s.current.read .lengthPrefixed with ⟨_ | f, d⟩
      · rfl
      · cases f <;> rfl
  | finish | save | restore => rfl

/-- **No access of a script goes wrong.** -/
theorem run_eq (s : Script) (steps : List Step) : run s steps = .ok (s.run steps) := by
  induction steps generalizing s with
  | nil => rfl
  | cons a steps ih =>
      rw [run, step_eq]
      simp only [bind, Except.bind, ih]
      rfl

end Cursor

/-! ### What is taken -/

/-- What is taken behind a length is just as long, and stands behind the code of that length. -/
theorem LengthPrefixed.exists_header_of_take? {src b rest : Bytes}
    (h : take? src = some (b, rest)) :
    ∃ header n, header ≠ [] ∧ Varint.decode32? src = some (n, header.length) ∧
      n.toNat = b.length ∧ src = header ++ b ++ rest := by
  unfold take? Varint.take32? at h
  cases hdecode : Varint.decode32? src with
  | none => simp [hdecode] at h
  | some r =>
      obtain ⟨n, k⟩ := r
      simp only [hdecode, Option.map_some, Option.ite_none_right_eq_some] at h
      obtain ⟨hle, htake⟩ := h
      cases htake
      obtain ⟨hpos, hk⟩ := Varint.decode32?_bounds hdecode
      have hheader : (src.take k).length = k := by
        rw [List.length_take, Nat.min_eq_left hk]
      refine ⟨src.take k, _, ?_, by rw [hheader], ?_, ?_⟩
      · rw [← List.length_pos_iff, hheader]
        exact hpos
      · rw [List.length_take, Nat.min_eq_left hle]
      · rw [List.append_assoc, List.take_append_drop, List.take_append_drop]

theorem Field.kind_of_take? {k : Kind} {src rest : Bytes} {f : Field}
    (h : take? k src = some (f, rest)) : f.kind = k := by
  cases k <;> simp only [take?, Option.map_eq_some_iff] at h <;> obtain ⟨x, -, hf⟩ := h <;>
    cases hf <;> rfl

namespace Decoder

/-- A decoder has taken a field: at least a byte is gone at the front, and what remains is what
stood behind. Of a length-prefixed value the code of its length is gone, and then as many bytes as
that says, which are the value. -/
def IsTaken (d d' : Decoder) (f : Field) : Prop :=
  ∃ q, q ≠ [] ∧ q ++ d'.remaining = d.remaining ∧
    ∀ b, f = .lengthPrefixed b → ∃ header n, q = header ++ b ∧
      Varint.decode32? d.remaining = some (n, header.length) ∧ n.toNat = b.length

variable {d d' : Decoder} {f : Field} {k : Field.Kind}

theorem read_eq_ok_iff : d.read k = (.ok f, d') ↔
    Field.take? k d.remaining = some (f, d'.remaining) := by
  unfold read
  split
  · rename_i h
    obtain ⟨remaining⟩ := d'
    simp [h]
  · rename_i h
    simp [h]

/-- **A read that succeeds takes a field of its kind from the front.** -/
theorem isTaken_of_read (h : d.read k = (.ok f, d')) : f.kind = k ∧ d.IsTaken d' f := by
  have htake := read_eq_ok_iff.1 h
  have hkind := Field.kind_of_take? htake
  refine ⟨hkind, ?_⟩
  by_cases hprefixed : k = .lengthPrefixed
  · subst hprefixed
    obtain ⟨⟨b, rest⟩, hb, hf⟩ := Option.map_eq_some_iff.1 htake
    cases hf
    obtain ⟨header, n, hne, hdecode, hn, hsrc⟩ := LengthPrefixed.exists_header_of_take? hb
    refine ⟨header ++ b, by simp [hne], hsrc.symm, fun b' hb' => ?_⟩
    cases hb'
    exact ⟨header, n, rfl, hdecode, hn⟩
  · obtain ⟨q, hq, hsrc⟩ := Field.exists_front_of_take? htake
    refine ⟨q, hq, hsrc.symm, fun b hb => ?_⟩
    rw [hb] at hkind
    exact absurd hkind.symm hprefixed

theorem IsTaken.suffix (h : d.IsTaken d' f) : d'.remaining <:+ d.remaining := by
  obtain ⟨q, -, hq, -⟩ := h
  exact ⟨q, hq⟩

theorem IsTaken.length_lt (h : d.IsTaken d' f) : d'.remaining.length < d.remaining.length := by
  obtain ⟨q, hne, hq, -⟩ := h
  have := List.length_pos_iff.2 hne
  rw [← hq, List.length_append]
  omega

/-- A value that has been taken is a piece of what remained, and its length is gone besides. -/
theorem IsTaken.isInfix {b : Bytes} (h : d.IsTaken d' (.lengthPrefixed b)) :
    b <:+: d.remaining ∧ b.length < d.remaining.length := by
  obtain ⟨q, -, hq, hvalue⟩ := h
  obtain ⟨header, n, rfl, hdecode, -⟩ := hvalue b rfl
  have hpos := (Varint.decode32?_bounds hdecode).1
  refine ⟨⟨header, d'.remaining, hq⟩, ?_⟩
  rw [← hq, List.length_append, List.length_append]
  omega

namespace Script

/-! ### Steps -/

/-- A script after steps. -/
def after (s : Script) (steps : List Step) : Script := steps.foldl (fun s a => (s.step a).2) s

/-- A step that reads: it takes a field, or goes on inside one. -/
def Step.ReadsOn : Step → Prop
  | .read _ | .enter => True
  | .finish | .save | .restore => False

variable {s : Script}

theorem step_read (s : Script) (k : Field.Kind) :
    s.step (.read k) =
      ((s.current.read k).1.map some, { s with current := (s.current.read k).2 }) := by
  rw [step]
  rcases s.current.read k with ⟨_ | f, d⟩ <;> rfl

/-- To go inside a value comes to taking it, but that the decoder is then over the value. -/
theorem step_enter_cases (s : Script) :
    (∃ e, s.current.read .lengthPrefixed = (.error e, s.current) ∧ s.step .enter = (.error e, s)) ∨
      ∃ b d, s.current.read .lengthPrefixed = (.ok (.lengthPrefixed b), d) ∧
        s.step .enter = (.ok (some (.lengthPrefixed b)), { s with current := ⟨b⟩ }) := by
  rw [step]
  cases hread : s.current.read .lengthPrefixed with
  | mk r d =>
      cases r with
      | error e =>
          obtain rfl := eq_of_read_error hread
          exact Or.inl ⟨e, rfl, rfl⟩
      | ok f =>
          have hkind := (isTaken_of_read hread).1
          cases f with
          | lengthPrefixed b => exact Or.inr ⟨b, d, rfl, rfl⟩
          | fixed16 | fixed32 | fixed64 | varint32 | varint64 => cases hkind

/-- A step that fails changes nothing. -/
theorem eq_of_step_error {a : Step} {e : Fault} (h : (s.step a).1 = .error e) :
    (s.step a).2 = s := by
  cases a with
  | read k =>
      rw [step_read] at h ⊢
      cases hread : s.current.read k with
      | mk r d =>
          rw [hread] at h
          cases r with
          | ok f => cases h
          | error e' =>
              obtain rfl := eq_of_read_error hread
              rfl
  | enter =>
      obtain ⟨e', -, hstep⟩ | ⟨b, d, -, hstep⟩ := s.step_enter_cases
      · rw [hstep]
      · rw [hstep] at h
        cases h
  | finish => rfl
  | save | restore => cases h

theorem isTaken_of_step_read {k : Field.Kind} {f : Field}
    (h : (s.step (.read k)).1 = .ok (some f)) :
    f.kind = k ∧ s.current.IsTaken (s.step (.read k)).2.current f := by
  rw [step_read] at h ⊢
  cases hread : s.current.read k with
  | mk r d =>
      rw [hread] at h
      cases r with
      | error e => cases h
      | ok f' =>
          cases h
          exact isTaken_of_read hread

/-- A step that reads and succeeds leaves less to read. -/
theorem length_lt_of_readsOn {a : Step} (ha : a.ReadsOn) {r : Option Field}
    (h : (s.step a).1 = .ok r) :
    (s.step a).2.current.remaining.length < s.current.remaining.length := by
  cases a with
  | read k =>
      rw [step_read] at h ⊢
      cases hread : s.current.read k with
      | mk r' d =>
          rw [hread] at h
          cases r' with
          | error e => cases h
          | ok f => exact (isTaken_of_read hread).2.length_lt
  | enter =>
      obtain ⟨e, -, hstep⟩ | ⟨b, d, hread, hstep⟩ := s.step_enter_cases
      · rw [hstep] at h
        cases h
      · rw [hstep]
        exact (isTaken_of_read hread).2.isInfix.2
  | finish | save | restore => exact ha.elim

/-! ### Scripts -/

/-- Both decoders of a script stand in some bytes. -/
structure IsWithin (s : Script) (src : Bytes) : Prop where
  current : s.current.remaining <:+: src
  kept : s.kept.remaining <:+: src

theorem IsWithin.step {src : Bytes} (h : s.IsWithin src) (a : Step) :
    (s.step a).2.IsWithin src := by
  cases a with
  | read k =>
      rw [step_read]
      refine ⟨?_, h.kept⟩
      cases hread : s.current.read k with
      | mk r d =>
          cases r with
          | error e =>
              obtain rfl := eq_of_read_error hread
              exact h.current
          | ok f => exact (isTaken_of_read hread).2.suffix.isInfix.trans h.current
  | enter =>
      obtain ⟨e, -, hstep⟩ | ⟨b, d, hread, hstep⟩ := s.step_enter_cases <;> rw [hstep]
      · exact h
      · exact ⟨(isTaken_of_read hread).2.isInfix.1.trans h.current, h.kept⟩
  | finish => exact h
  | save => exact ⟨h.current, h.current⟩
  | restore => exact ⟨h.kept, h.kept⟩

theorem IsWithin.after {src : Bytes} (h : s.IsWithin src) (steps : List Step) :
    (s.after steps).IsWithin src := by
  induction steps generalizing s with
  | nil => exact h
  | cons a steps ih => exact ih (h.step a)

/-- **At most as many reads succeed as there are bytes**, even if a script goes on after one has
failed. -/
theorem countP_run_le {reads : List Step} (h : ∀ a ∈ reads, a.ReadsOn) (s : Script) :
    (s.run reads).countP (fun r => r.1.toBool) ≤ s.current.remaining.length := by
  induction reads generalizing s with
  | nil => exact Nat.zero_le _
  | cons a reads ih =>
      obtain ⟨ha, hreads⟩ := List.forall_mem_cons.1 h
      have hrest := ih hreads (s.step a).2
      rw [run, List.countP_cons]
      cases hr : (s.step a).1 with
      | error e =>
          rw [eq_of_step_error hr] at hrest ⊢
          exact hrest
      | ok r =>
          have hlt := length_lt_of_readsOn ha hr
          change _ + 1 ≤ _
          omega

/-- A decoder takes just what the bytes by themselves give, read by read. -/
theorem map_run_read (ks : List Field.Kind) (s : Script) :
    (s.run (ks.map .read)).map (fun r => (r.1.toOption.join, r.2.remaining)) =
      Field.takeEach ks s.current.remaining := by
  induction ks generalizing s with
  | nil => rfl
  | cons k ks ih =>
      rw [List.map_cons, run, List.map_cons, ih, step_read, Field.takeEach, Decoder.read]
      cases Field.take? k s.current.remaining <;> rfl

theorem step_finish_eq_ok_iff (s : Script) :
    (s.step .finish).1 = .ok none ↔ s.current.remaining = [] := by
  rw [step, finish]
  split <;> simp_all [Except.map]

/-- **Reading is safe whatever the bytes are.** No access of a script goes wrong. Wherever it has
come to, its decoders stand in the bytes that it began with. A step that fails reports corruption
and changes nothing. A read that succeeds takes a field of its kind from the front of what remains;
to go inside a value takes the same and is then over the value. Reads give what the bytes by
themselves give, and to finish succeeds just if nothing remains. Of all the reads that are made from
there on, at most as many succeed as bytes remain. -/
theorem steps_are_safe (src : Bytes) (steps : List Step) :
    Cursor.run (start src) steps = .ok ((start src).run steps) ∧
      let s := (start src).after steps
      (s.current.remaining <:+: src ∧ s.kept.remaining <:+: src) ∧
        (∀ a e, (s.step a).1 = .error e → e.status.code = .corruption ∧ (s.step a).2 = s) ∧
        (∀ k f, (s.step (.read k)).1 = .ok (some f) →
          f.kind = k ∧ s.current.IsTaken (s.step (.read k)).2.current f) ∧
        (∀ f, (s.step .enter).1 = .ok (some f) → ∃ b, f = .lengthPrefixed b ∧
          (s.step .enter).2 = { s with current := ⟨b⟩ } ∧
          (s.step (.read .lengthPrefixed)).1 = .ok (some f)) ∧
        (∀ ks, (s.run (ks.map .read)).map (fun r => (r.1.toOption.join, r.2.remaining)) =
          Field.takeEach ks s.current.remaining) ∧
        ((s.step .finish).1 = .ok none ↔ s.current.remaining = []) ∧
        ∀ reads, (∀ a ∈ reads, a.ReadsOn) →
          (s.run reads).countP (fun r => r.1.toBool) ≤ s.current.remaining.length := by
  have hwithin : ((start src).after steps).IsWithin src :=
    IsWithin.after ⟨List.infix_rfl, List.infix_rfl⟩ steps
  refine ⟨Cursor.run_eq _ _, ⟨hwithin.current, hwithin.kept⟩,
    fun a e h => ⟨e.code_status, eq_of_step_error h⟩, fun k f => isTaken_of_step_read,
    fun f h => ?_, fun ks => map_run_read ks _, step_finish_eq_ok_iff _,
    fun reads h => countP_run_le h _⟩
  obtain ⟨e, -, hstep⟩ | ⟨b, d, hread, hstep⟩ := step_enter_cases ((start src).after steps)
  · rw [hstep] at h
    cases h
  · rw [hstep] at h ⊢
    cases h
    exact ⟨b, rfl, rfl, by rw [step_read, hread]; rfl⟩

/-- A value within which another one says that it is longer than all that there is. -/
theorem steps_are_safe_overlong :
    ∃ src steps, src = [0x06, 0xff, 0xff, 0xff, 0xff, 0x0f, 0x61, 0x80] ∧ steps = [.enter] ∧
      let s := (start src).after steps
      s.current.remaining = [0xff, 0xff, 0xff, 0xff, 0x0f, 0x61] ∧
        (s.step .enter).1 = .error .badLengthPrefixed ∧
        (Decoder.Fault.badLengthPrefixed.status.code = .corruption ∧ (s.step .enter).2 = s) ∧
        (s.step (.read .varint32)).1 = .ok (some (.varint32 0xffffffff)) ∧
        s.current.IsTaken (s.step (.read .varint32)).2.current (.varint32 0xffffffff) := by
  obtain ⟨-, -, hfails, htakes, -⟩ :=
    steps_are_safe [0x06, 0xff, 0xff, 0xff, 0xff, 0x0f, 0x61, 0x80] [.enter]
  have henter : (((start [0x06, 0xff, 0xff, 0xff, 0xff, 0x0f, 0x61, 0x80]).after [.enter]).step
      .enter).1 = .error .badLengthPrefixed := rfl
  have hread : (((start [0x06, 0xff, 0xff, 0xff, 0xff, 0x0f, 0x61, 0x80]).after [.enter]).step
      (.read .varint32)).1 = .ok (some (.varint32 0xffffffff)) := rfl
  exact ⟨_, _, rfl, rfl, by decide, henter, hfails .enter _ henter, hread, (htakes _ _ hread).2⟩

end Script

end Decoder

end RecordLog
