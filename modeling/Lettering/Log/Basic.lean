import Lettering.Log.Counters
import Lettering.Log.Quoted

/-!
# The log

A log is a sequence of records, one line each, and the counters that the next
summary will list. An event names its kind and carries fields whose values are
already in written form; a summary lists the counters in order of their names
and starts them anew.
-/

namespace Lettering

namespace Log

/-- A record of the log. -/
inductive Record
  /-- A line as it is. -/
  | line (content : Text)
  /-- An event with its fields, their values in written form. -/
  | event (kind : String) (fields : List (String × Text))
  /-- The values of the counters at a summary. -/
  | summary (context : String) (counts : List (String × Nat))
deriving DecidableEq, Repr

/-- The members of an object, separated by commas. -/
def members (fields : List (String × Text)) : Text :=
  [','].intercalate (fields.map fun (key, value) => quote key.toList ++ ':' :: value)

/-- An object with the given members, their values in written form. -/
def object (fields : List (String × Text)) : Text := '{' :: (members fields ++ ['}'])

/-- An array of the given elements in written form. -/
def array (elements : List Text) : Text := '[' :: ([','].intercalate elements ++ [']'])

/-- The line of a record. -/
def Record.text : Record → Text
  | line content => content
  | event kind fields => object (("type", quote kind.toList) :: fields)
  | summary context counts =>
    object [("type", quote "debug.summary".toList), ("context", quote context.toList),
      ("counts", object (counts.map fun (key, n) => (key, Text.ofNat n)))]

end Log

/-- The records written so far, and the counters of the next summary. -/
structure Log where
  records : List Log.Record := []
  counters : Log.Counters := ∅
deriving DecidableEq, Repr

namespace Log

instance : Inhabited Log := ⟨{}⟩

/-- Writes records. -/
def write (log : Log) (records : List Record) : Log :=
  { log with records := log.records ++ records }

/-- Adds an amount to a counter. -/
def increment (log : Log) (key : String) (amount : Nat) : Log :=
  { log with counters := log.counters.add key amount }

/-- Writes a summary of the counters and starts them anew. -/
def summarize (log : Log) (context : String) : Log :=
  { (log.write [.summary context log.counters.listed]) with counters := ∅ }

/-- The whole text of the log. -/
def text (log : Log) : Text := log.records.flatMap fun r => r.text ++ ['\n']

@[simp] theorem records_write (log : Log) (rs : List Record) :
    (log.write rs).records = log.records ++ rs := rfl

@[simp] theorem counters_write (log : Log) (rs : List Record) :
    (log.write rs).counters = log.counters := rfl

@[simp] theorem records_increment (log : Log) (key : String) (n : Nat) :
    (log.increment key n).records = log.records := rfl

@[simp] theorem records_summarize (log : Log) (context : String) :
    (log.summarize context).records = log.records ++ [.summary context log.counters.listed] := rfl

@[simp] theorem counters_summarize (log : Log) (context : String) :
    (log.summarize context).counters = ∅ := rfl

end Log

end Lettering
