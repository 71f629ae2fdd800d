import RecordLog.Proofs.Volume.Content
import RecordLog.Writer.Stream

/-!
# Streams on a file of their own

A stream whose descriptor stands behind all that its file holds keeps it so, as long as there is
room in the file: what it writes comes behind what is there. How an append is divided between the
file and the buffer depends only on three lengths, those of the buffer, of what is appended and of
the capacity.

## Main definitions

* `RecordLog.Stream.divide`, what the file and the buffer hold after an append.

## Main results

* `RecordLog.Stream.spill_atEnd` and `RecordLog.Stream.append_atEnd`.
* `RecordLog.Stream.divide_append` and `RecordLog.Stream.prefix_divide`: no byte is lost or moved.
-/

namespace RecordLog.Stream

/-- What a file and a buffer hold after an append, given what they hold before: bytes that are at
least as many as the buffer takes go to the file, behind the buffer; fewer go to the buffer, which
is first written out if they do not fit behind what it holds. -/
def divide (capacity : Nat) (content pending data : Bytes) : Bytes × Bytes :=
  if capacity ≤ data.length then (content ++ pending ++ data, [])
  else if pending.length + data.length ≤ capacity then (content, pending ++ data)
  else (content ++ pending, data)

theorem divide_append (capacity : Nat) (content pending data : Bytes) :
    (divide capacity content pending data).1 ++ (divide capacity content pending data).2 =
      content ++ pending ++ data := by
  unfold divide
  split_ifs <;> simp

theorem prefix_divide (capacity : Nat) (content pending data : Bytes) :
    content <+: (divide capacity content pending data).1 := by
  unfold divide
  split_ifs <;> simp

variable {v : Volume} {id : Nat} {c : Bytes}

/-- Writing past the buffer puts bytes behind those of the file. -/
theorem writeThrough_atEnd (hc : v.content? id = some c) (b : Bytes) {data : Bytes}
    (hroom : v.CanHold (c ++ data).length) :
    ∃ v', writeThrough v ⟨.atEnd id c, b⟩ data = (.ok (), v', ⟨.atEnd id (c ++ data), b⟩) ∧
      v'.content? id = some (c ++ data) ∧ v'.conditions = v.conditions := by
  obtain ⟨v', hwrite, hv'⟩ := Volume.writeAll_atEnd hc hroom
  exact ⟨v', by simp [writeThrough, hwrite], hv'⟩

/-- Writing out the buffer puts it behind what the file holds. -/
theorem spill_atEnd (hc : v.content? id = some c) {b : Bytes} (hroom : v.CanHold (c ++ b).length) :
    ∃ v', spill v ⟨.atEnd id c, b⟩ = (.ok (), v', ⟨.atEnd id (c ++ b), []⟩) ∧
      v'.content? id = some (c ++ b) ∧ v'.conditions = v.conditions := by
  obtain ⟨v', hwrite, hv'⟩ := Volume.writeAll_atEnd hc hroom
  exact ⟨v', by simp [spill, hwrite], hv'⟩

/-- **An append leaves the file and the buffer as `divide` says**, if the file has room for all. -/
theorem append_atEnd (hc : v.content? id = some c) (capacity : Nat) (b : Bytes) {data : Bytes}
    (hdata : data ≠ []) (hroom : v.CanHold (c ++ b ++ data).length) :
    ∃ v', append capacity v ⟨.atEnd id c, b⟩ data =
        (.ok (), v', ⟨.atEnd id (divide capacity c b data).1, (divide capacity c b data).2⟩) ∧
      v'.content? id = some (divide capacity c b data).1 ∧ v'.conditions = v.conditions := by
  have hlength : 0 < data.length := List.length_pos_iff.2 hdata
  have hpending : v.CanHold (c ++ b).length := hroom.mono (by simp)
  rcases Nat.lt_or_ge data.length (capacity - b.length) with hspare | hfull
  · -- The bytes leave room in the buffer.
    have hdivide : divide capacity c b data = (c, b ++ data) := by
      rw [divide, if_neg (by omega), if_pos (by omega)]
    exact ⟨v, by simp [append, hold, hspare, hdivide], by rwa [hdivide], rfl⟩
  · by_cases hover : capacity - b.length < data.length
    · -- The buffer is written out; then there is room, or the bytes are too many for any buffer.
      obtain ⟨v₁, hspill, hv₁, hconditions₁⟩ := spill_atEnd hc hpending
      by_cases hlarge : capacity ≤ data.length
      · have hdivide : divide capacity c b data = (c ++ b ++ data, []) := by
          rw [divide, if_pos hlarge]
        obtain ⟨v₂, hwrite, hv₂, hconditions₂⟩ :=
          writeThrough_atEnd hv₁ [] (hroom.congr hconditions₁)
        refine ⟨v₂, ?_, by rwa [hdivide], hconditions₂.trans hconditions₁⟩
        simp only [append, Nat.not_lt.2 hfull, if_false, hover, if_true, hspill, hlarge, hwrite,
          hdivide]
      · have hdivide : divide capacity c b data = (c ++ b, data) := by
          rw [divide, if_neg hlarge, if_neg (by omega)]
        refine ⟨v₁, ?_, by rwa [hdivide], hconditions₁⟩
        simp only [append, Nat.not_lt.2 hfull, if_false, hover, if_true, hspill, hlarge, hold,
          hdivide, List.nil_append]
    · -- The bytes fill the buffer to the brim.
      by_cases hlarge : capacity ≤ data.length
      · have hb : b = [] := List.length_eq_zero_iff.1 (by omega)
        subst hb
        rw [List.append_nil] at hroom
        have hdivide : divide capacity c [] data = (c ++ data, []) := by
          rw [divide, if_pos hlarge, List.append_nil]
        obtain ⟨v₁, hwrite, hv₁, hconditions₁⟩ := writeThrough_atEnd hc [] hroom
        refine ⟨v₁, ?_, by rwa [hdivide], hconditions₁⟩
        simp only [append, Nat.not_lt.2 hfull, if_false, hover, hlarge, if_true, hwrite, hdivide]
      · have hdivide : divide capacity c b data = (c, b ++ data) := by
          rw [divide, if_neg hlarge, if_pos (by omega)]
        refine ⟨v, ?_, by rwa [hdivide], rfl⟩
        simp only [append, Nat.not_lt.2 hfull, if_false, hover, hlarge, hold, hdivide]

end RecordLog.Stream
