import RecordLog.Options.Basic
import RecordLog.Text.Utf8

/-!
# Settings in documents

Each option is set in a document under a key of its own, by a value of a certain kind. Options are
no more than a value for each setting.

## Main definitions

* `RecordLog.Options.Setting`, with its `key` and the `Setting.Kind` of its values.
* `RecordLog.Options.value` and `RecordLog.Options.ofValues`, options as values of their settings.
-/

namespace RecordLog.Options

/-- What can be set. -/
inductive Setting
  | bufferCapacity
  | fileMode
  | dirMode
  | syncMetadata
  deriving DecidableEq, Repr

namespace Setting

/-- All settings, in the order in which they are written. -/
def all : List Setting := [.bufferCapacity, .fileMode, .dirMode, .syncMetadata]

/-- The key of a setting. -/
def key : Setting → Text
  | .bufferCapacity => "buffer_capacity".toList
  | .fileMode => "file_mode".toList
  | .dirMode => "dir_mode".toList
  | .syncMetadata => "sync_metadata".toList

/-- The setting with a given key. -/
def ofKey? (k : Text) : Option Setting := all.find? fun s => s.key = k

/-- Kinds of values: natural numbers of 64 bits or of 32 bits, and truth values. -/
inductive Kind
  | count
  | mode
  | flag
  deriving DecidableEq, Repr

/-- The values of a kind. -/
@[reducible] def Kind.Carrier : Kind → Type
  | .count => UInt64
  | .mode => UInt32
  | .flag => Bool

/-- What a kind is called. -/
def Kind.name : Kind → String
  | .count => "usize"
  | .mode => "u32"
  | .flag => "a boolean"

/-- The kind of values of a setting. -/
@[reducible] def kind : Setting → Kind
  | .bufferCapacity => .count
  | .fileMode => .mode
  | .dirMode => .mode
  | .syncMetadata => .flag

theorem mem_all (s : Setting) : s ∈ all := by cases s <;> decide

@[simp] theorem ofKey?_key (s : Setting) : ofKey? s.key = some s := by cases s <;> decide

end Setting

/-- What options say about a setting. -/
def value (o : Options) : (s : Setting) → s.kind.Carrier
  | .bufferCapacity => o.bufferCapacity
  | .fileMode => o.fileMode
  | .dirMode => o.dirMode
  | .syncMetadata => o.syncMetadata

/-- The options with given values for their settings. -/
def ofValues (x : (s : Setting) → s.kind.Carrier) : Options where
  bufferCapacity := x .bufferCapacity
  fileMode := x .fileMode
  dirMode := x .dirMode
  syncMetadata := x .syncMetadata

@[simp] theorem ofValues_value (o : Options) : ofValues o.value = o := rfl

end RecordLog.Options
