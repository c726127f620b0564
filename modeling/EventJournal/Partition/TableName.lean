import EventJournal.Digest.Sha256
import EventJournal.Partition

/-!
# Names of the tables of partitions

The table of a partition is named for the level of the partition and a digest of its
key, cut to six characters. Two keys may get the same name; then the successors of the
name are tried in turn, in an order in which every name is longer than the one before or
as long and greater, so that no name comes twice.
-/

namespace EventJournal.TableName

/-- The parts of a key, with a unit separator between them. -/
def digestInput (key : PartitionKey) : String :=
  String.intercalate "\u001f" (key.context :: key.streamName.toList ++ key.eventType.toList)

/-- The digest of a key: six hexadecimal digits. -/
def digest (key : PartitionKey) : String :=
  String.ofList ((Digest.Sha256.hexDigest (digestInput key).toUTF8.toList).take 6)

/-- The first name to try for the table of a partition at a level, if its key has the
given digest. -/
def candidate (level : PartitionLevel) (digest : String) : String :=
  level.tableStem ++ "_" ++ digest

/-! ## Successors -/

/-- The last character of each class is followed by its first. -/
def bump (c : Char) : Char × Bool :=
  if c = '9' then ('0', true)
  else if c = 'z' then ('a', true)
  else if c = 'Z' then ('A', true)
  else (Char.ofNat (c.toNat + 1), false)

/-- What is put in front of a run whose first character went around. -/
def carry (c : Char) : Char :=
  if c = '0' then '1' else if c = 'A' then 'A' else 'a'

/-- The successor of a run of letters and digits, read from its right end. Each position
keeps its class, and a run that went all the way around grows by one at its left end. -/
def bumpRun : List Char → List Char
  | [] => []
  | c :: rest =>
      match bump c with
      | (next, false) => next :: rest
      | (next, true) =>
          match rest with
          | [] => [next, carry next]
          | d :: _ =>
              if d.isAlphanum then next :: bumpRun rest else next :: carry next :: rest

/-- The successor of a name read from its right end: of its last run of letters and
digits, or with one letter more if it has none. -/
def bumpName : List Char → Option (List Char)
  | [] => none
  | c :: rest => if c.isAlphanum then some (bumpRun (c :: rest)) else (bumpName rest).map (c :: ·)

/-- The name to try after the given one. -/
def successor (name : String) : String :=
  match bumpName name.toList.reverse with
  | some chars => String.ofList chars.reverse
  | none => name ++ "a"

end EventJournal.TableName
