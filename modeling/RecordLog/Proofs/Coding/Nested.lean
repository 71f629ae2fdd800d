import RecordLog.Proofs.Coding.InPlace
import RecordLog.Proofs.Coding.Truncation

/-!
# Records within records

A record is a list of items. An item is a field, or a record of its own that is encoded by itself
and then put as a length-prefixed value, and so on to any depth. To read a record back, its layout
has to be known: the kinds of its fields and the layouts of the records in it. A decoder takes the
fields in order and enters each inner record with a decoder of its own, which has to come to the
end of the value.

Items are put into a buffer by the calls that put their fields. An item that fits is put as one and
the same code whatever the buffer holds, and the decoder stops right at the end of this code,
whatever is behind it; so both can be proved together, by induction on the item.

## Main definitions

* `RecordLog.Item`, with `Item.put?`, `Item.putAll?` and `Item.Fits`.
* `RecordLog.Layout` and `RecordLog.Item.layout`.
* `RecordLog.Decoder.readItem` and `RecordLog.Decoder.readItems`.
* `RecordLog.Item.IsCode` and `RecordLog.Item.AreCode`.

## Main results

* `RecordLog.Item.exists_isCode` and `RecordLog.Item.exists_areCode`.
* `RecordLog.Decoder.readItems_putAll`: a record is read back, whatever follows it.
-/

namespace RecordLog

/-- A part of a record: a field, or a record within. -/
inductive Item
  | field (f : Field)
  | group (items : List Item)
  deriving Repr

/-- What has to be known of an item to read it. -/
inductive Layout
  | field (k : Field.Kind)
  | group (items : List Layout)
  deriving Repr

namespace Item

mutual

/-- Appends an item to a buffer, unless a value in it is too long. A record within is first put into
a buffer of its own. -/
def put? (buffer : Bytes) : Item → Option Bytes
  | .field f => Field.put? buffer f
  | .group items => do
    let inner ← putAll? [] items
    Field.put? buffer (.lengthPrefixed inner)

/-- Appends items to a buffer one after the other. -/
def putAll? (buffer : Bytes) : List Item → Option Bytes
  | [] => some buffer
  | x :: xs => do
    let buffer ← put? buffer x
    putAll? buffer xs

end

mutual

/-- The layout of an item. -/
def layout : Item → Layout
  | .field f => .field f.kind
  | .group items => .group (layouts items)

/-- The layouts of items. -/
def layouts : List Item → List Layout
  | [] => []
  | x :: xs => layout x :: layouts xs

end

mutual

/-- Every length-prefixed value in an item has a length of 32 bits. -/
def Fits : Item → Prop
  | .field f => f.Fits
  | .group items => (∀ inner ∈ putAll? [] items, inner.length < UInt32.size) ∧ AllFit items

/-- Every length-prefixed value in items has a length of 32 bits. -/
def AllFit : List Item → Prop
  | [] => True
  | x :: xs => Fits x ∧ AllFit xs

end

end Item

namespace Decoder

mutual

/-- Takes an item of a given layout. A record within is taken as a length-prefixed value and read
by a decoder over that value, of which nothing may be left. -/
def readItem (d : Decoder) : Layout → Except Fault (Item × Decoder)
  | .field k =>
    match d.read k with
    | (.ok f, d) => .ok (.field f, d)
    | (.error e, _) => .error e
  | .group items =>
    match d.read .lengthPrefixed with
    | (.ok (.lengthPrefixed b), d) => do
      let (xs, inner) ← readItems ⟨b⟩ items
      inner.finish
      return (.group xs, d)
    | (.ok _, _) => .error .badLengthPrefixed
    | (.error e, _) => .error e

/-- Takes items of given layouts one after the other. -/
def readItems (d : Decoder) : List Layout → Except Fault (List Item × Decoder)
  | [] => .ok ([], d)
  | l :: ls => do
    let (x, d) ← readItem d l
    let (xs, d) ← readItems d ls
    return (x :: xs, d)

end

theorem finish_eq_ok_iff (t : Bytes) : finish ⟨t⟩ = .ok () ↔ t = [] := by
  unfold finish
  split <;> simp_all

end Decoder

/-! ### Codes of items -/

namespace Item

open Decoder (readItem readItems)

/-- The bytes `e` are the code of an item: they are what is appended for it, whatever a buffer
holds, and it is read back from them, whatever follows. -/
structure IsCode (x : Item) (e : Bytes) : Prop where
  put?_eq (start : Bytes) : put? start x = some (start ++ e)
  readItem_eq (t : Bytes) : readItem ⟨e ++ t⟩ x.layout = .ok (x, ⟨t⟩)

/-- The bytes `e` are the code of a row of items. -/
structure AreCode (xs : List Item) (e : Bytes) : Prop where
  putAll?_eq (start : Bytes) : putAll? start xs = some (start ++ e)
  readItems_eq (t : Bytes) : readItems ⟨e ++ t⟩ (layouts xs) = .ok (xs, ⟨t⟩)

theorem isCode_field {f : Field} (h : f.Fits) : IsCode (.field f) f.encode where
  put?_eq start := by rw [put?, Field.put?_eq h, Field.put]
  readItem_eq t := by rw [layout, readItem, Decoder.read_encode_append h]

/-- A record within has the code of the byte string that its items are put as. -/
theorem isCode_group {items : List Item} {inner : Bytes} (hcode : AreCode items inner)
    (h : inner.length < UInt32.size) :
    IsCode (.group items) (Field.encode (.lengthPrefixed inner)) where
  put?_eq start := by
    rw [put?, hcode.putAll?_eq, List.nil_append, Option.bind_eq_bind, Option.bind_some,
      Field.put?_eq (f := .lengthPrefixed inner) h, Field.put]
  readItem_eq t := by
    have hread := Decoder.read_encode_append (f := .lengthPrefixed inner) h t
    have hitems := hcode.readItems_eq []
    have hfinish := (Decoder.finish_eq_ok_iff []).2 rfl
    rw [Field.kind] at hread
    rw [List.append_nil] at hitems
    rw [layout, readItem, hread]
    simp [hitems, hfinish, bind, Except.bind, pure, Except.pure]

theorem areCode_nil : AreCode [] [] where
  putAll?_eq start := by rw [putAll?, List.append_nil]
  readItems_eq t := by rw [List.nil_append, layouts, readItems]

theorem areCode_cons {x : Item} {xs : List Item} {e es : Bytes} (hx : IsCode x e)
    (hxs : AreCode xs es) : AreCode (x :: xs) (e ++ es) where
  putAll?_eq start := by
    rw [putAll?, hx.put?_eq, Option.bind_eq_bind, Option.bind_some, hxs.putAll?_eq,
      List.append_assoc]
  readItems_eq t := by
    rw [List.append_assoc, layouts, readItems, hx.readItem_eq]
    simp [hxs.readItems_eq, bind, Except.bind, pure, Except.pure]

mutual

/-- **An item that fits has a code.** -/
theorem exists_isCode : (x : Item) → x.Fits → ∃ e, IsCode x e
  | .field f, hfit => by
      rw [Fits] at hfit
      exact ⟨_, isCode_field hfit⟩
  | .group items, hfit => by
      rw [Fits] at hfit
      obtain ⟨hlength, hitems⟩ := hfit
      obtain ⟨inner, hinner⟩ := exists_areCode items hitems
      exact ⟨_, isCode_group hinner (hlength inner (hinner.putAll?_eq []))⟩

/-- **Items that fit have a code.** -/
theorem exists_areCode : (xs : List Item) → AllFit xs → ∃ e, AreCode xs e
  | [], _ => ⟨[], areCode_nil⟩
  | x :: xs, hfit => by
      rw [AllFit] at hfit
      obtain ⟨e, he⟩ := exists_isCode x hfit.1
      obtain ⟨es, hes⟩ := exists_areCode xs hfit.2
      exact ⟨e ++ es, areCode_cons he hes⟩

end

end Item

namespace Decoder

/-- **A record is read back, whatever it is put behind and whatever is put behind it.** To put its
items into a buffer appends the same bytes to whatever the buffer holds. A decoder over these bytes,
with any others behind them, gives the items again, every inner decoder having come to its end; it
is left with the bytes behind them, so that it has come to its end, too, just if there are none. -/
theorem readItems_putAll {xs : List Item} (hfit : Item.AllFit xs) :
    ∃ e, (∀ start, Item.putAll? start xs = some (start ++ e)) ∧
      ∀ t, readItems ⟨e ++ t⟩ (Item.layouts xs) = .ok (xs, ⟨t⟩) ∧
        (finish ⟨t⟩ = .ok () ↔ t = []) := by
  obtain ⟨e, hcode⟩ := Item.exists_areCode xs hfit
  exact ⟨e, hcode.putAll?_eq, fun t => ⟨hcode.readItems_eq t, finish_eq_ok_iff t⟩⟩

/-- A record of two levels, the inner one of them with an empty record in it. -/
theorem readItems_putAll_nested :
    ∃ xs, xs = [.field (.varint32 300), .group [.field (.fixed16 7), .group []],
        .field (.lengthPrefixed [0x61])] ∧
      Item.AllFit xs ∧
      Item.putAll? [0xff] xs = some [0xff, 0xac, 0x02, 0x03, 0x07, 0x00, 0x00, 0x01, 0x61] ∧
      readItems ⟨[0xac, 0x02, 0x03, 0x07, 0x00, 0x00, 0x01, 0x61, 0x80]⟩ (Item.layouts xs) =
        .ok (xs, ⟨[0x80]⟩) ∧
      (finish ⟨[0x80]⟩ = .ok () ↔ [0x80] = ([] : Bytes)) := by
  have hinner : ∀ inner ∈ Item.putAll? [] [.field (.fixed16 7), .group []],
      inner.length < UInt32.size := by
    decide +kernel
  have hempty : ∀ inner ∈ Item.putAll? [] [], inner.length < UInt32.size := by
    decide +kernel
  have hkey : (Item.field (.lengthPrefixed [0x61])).Fits := by
    simp [Item.Fits, Field.Fits, UInt32.size]
  have hfit : Item.AllFit [.field (.varint32 300), .group [.field (.fixed16 7), .group []],
      .field (.lengthPrefixed [0x61])] :=
    ⟨trivial, ⟨hinner, trivial, ⟨hempty, trivial⟩, trivial⟩, hkey, trivial⟩
  have hput : Item.putAll? [] [.field (.varint32 300), .group [.field (.fixed16 7), .group []],
      .field (.lengthPrefixed [0x61])] =
        some [0xac, 0x02, 0x03, 0x07, 0x00, 0x00, 0x01, 0x61] := by
    decide +kernel
  obtain ⟨e, he, hread⟩ := readItems_putAll hfit
  cases Option.some.inj (hput.symm.trans (he []))
  exact ⟨_, rfl, hfit, he [0xff], hread [0x80]⟩

end Decoder

end RecordLog
