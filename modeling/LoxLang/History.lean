import LoxLang.Text.Lines

/-! The lines that were entered before, oldest first. Only so many of them are remembered. -/
namespace LoxLang

structure History where
  entries : List (List UInt8) := []
deriving DecidableEq, Inhabited, Repr

namespace History

def limit : Nat := 1000

/-- The newest entries, if there are too many. -/
def ofEntries (entries : List (List UInt8)) : History :=
  { entries := entries.drop (entries.length - limit) }

/-- Adds an entry, unless it is the newest one already. -/
def add (h : History) (entry : List UInt8) : History :=
  if h.entries.getLast? = some entry then h else ofEntries (h.entries ++ [entry])

/-- Entries from a file, one a line. Reading ends before a line that is too long or not text. -/
def ofBytes (bytes : List UInt8) : History :=
  let lines := (Text.inputLines bytes).takeWhile fun line => !line.full && Text.isUtf8 line.bytes
  ofEntries (lines.map (·.bytes))

def toBytes (h : History) : List UInt8 :=
  h.entries.flatMap (· ++ [Text.lineFeed])

end History
end LoxLang
