import RecordLog.Toml.Key
import RecordLog.Toml.Value

/-!
# Adding to tables

A key is given a value once. A header opens a table that is new or has only been on the way to
other headers; a dotted key leads only through tables that such keys have made, or through those
on the way to a header to one that such keys have made.

## Main definitions

* `RecordLog.Toml.Entries.alter`, a change to the table at the end of a way.
* `RecordLog.Toml.Entries.assign`, `RecordLog.Toml.Entries.openTable` and
  `RecordLog.Toml.Entries.addTable`, what the three kinds of statements do.

## Main results

* `RecordLog.Toml.Entries.lookup_put_self`, `RecordLog.Toml.Entries.lookup_put_of_ne` — what is
  found after a value has been put under a key.
* `RecordLog.Toml.Entries.put_of_lookup_eq_none` — a new key comes behind all others.
-/

namespace RecordLog.Toml

/-- What leads to a table: a header or a dotted key. -/
inductive Route
  | header
  | dotted
  deriving DecidableEq, Repr

namespace Route

/-- How the tables come about that are missing on the way. -/
def origin : Route → Origin
  | .header => .implied
  | .dotted => .dotted

/-- Whether a route may lead through tables of a given origin, to the last table or on from it. -/
def admits (r : Route) (isLast : Bool) : Origin → Bool
  | .implied => r = .header || !isLast
  | .dotted => true
  | .header => r = .header
  | .closed => false

/-- Whether a route may lead through the last one of a list of tables. -/
def admitsTables (r : Route) (isLast : Bool) : Bool := r = .header || !isLast

/-- Changes what stands under a key that a route leads through. -/
def enter (r : Route) (isLast : Bool) (f : Entries → Option Entries) :
    Option Value → Option Value
  | none => (f []).map (.table r.origin)
  | some (.table o es) => if r.admits isLast o then (f es).map (.table o) else none
  | some (.tables earlier last) =>
    if r.admitsTables isLast then (f last).map (.tables earlier) else none
  | some _ => none

end Route

namespace Entries

/-- Puts a value under a key: in place of the one there, or behind all others. -/
def put (k : Text) (v : Value) : Entries → Entries
  | [] => [(k, v)]
  | e :: es => if e.1 = k then (k, v) :: es else e :: put k v es

@[simp] theorem lookup_put_self (k : Text) (v : Value) (es : Entries) :
    (put k v es).lookup k = some v := by
  induction es with
  | nil => simp [put]
  | cons e es ih =>
    obtain ⟨a, w⟩ := e
    by_cases h : a = k
    · simp [put, h]
    · have hk : (k == a) = false := beq_eq_false_iff_ne.2 (Ne.symm h)
      simp [put, h, List.lookup_cons, hk, ih]

theorem lookup_put_of_ne {k k' : Text} (h : k' ≠ k) (v : Value) (es : Entries) :
    (put k v es).lookup k' = es.lookup k' := by
  have hk : (k' == k) = false := beq_eq_false_iff_ne.2 h
  induction es with
  | nil => simp [put, List.lookup_cons, hk]
  | cons e es ih =>
    obtain ⟨a, w⟩ := e
    by_cases ha : a = k
    · subst ha
      simp [put, List.lookup_cons, hk]
    · simp [put, ha, List.lookup_cons, ih]

theorem put_of_lookup_eq_none {k : Text} {es : Entries} (h : es.lookup k = none) (v : Value) :
    put k v es = es ++ [(k, v)] := by
  induction es with
  | nil => rfl
  | cons e es ih =>
    obtain ⟨a, w⟩ := e
    by_cases ha : k = a
    · simp [ha] at h
    · have hk : (k == a) = false := beq_eq_false_iff_ne.2 ha
      have hr : es.lookup k = none := by simpa [List.lookup_cons, hk] using h
      simp [put, Ne.symm ha, ih hr]

/-- Changes the table at the end of a way. -/
def alter (r : Route) (f : Entries → Option Entries) : List Text → Entries → Option Entries
  | [], es => f es
  | k :: ks, es =>
    (r.enter ks.isEmpty (alter r f ks) (es.lookup k)).map fun v => put k v es

/-- Gives a value to a key that has none. -/
def add (k : Text) (v : Value) (es : Entries) : Option Entries :=
  if (es.lookup k).isNone then some (put k v es) else none

/-- Gives a value to the key at the end of a path. -/
def assign (p : KeyPath) (v : Value) (es : Entries) : Option Entries :=
  alter .dotted (add p.last v) p.way es

/-- Opens a table under a key. -/
def openAt (k : Text) (es : Entries) : Option Entries :=
  match es.lookup k with
  | none => some (put k (.table .header []) es)
  | some (.table .implied sub) => some (put k (.table .header sub) es)
  | some _ => none

/-- Opens the table at the end of a path. -/
def openTable (p : KeyPath) (es : Entries) : Option Entries :=
  alter .header (openAt p.last) p.way es

/-- Adds a table to a list of tables under a key. -/
def addAt (k : Text) (es : Entries) : Option Entries :=
  match es.lookup k with
  | none => some (put k (.tables [] []) es)
  | some (.tables earlier last) => some (put k (.tables (earlier ++ [last]) []) es)
  | some _ => none

/-- Adds a table to the list of tables at the end of a path. -/
def addTable (p : KeyPath) (es : Entries) : Option Entries :=
  alter .header (addAt p.last) p.way es

end Entries

end RecordLog.Toml
