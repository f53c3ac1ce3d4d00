/-!
# Scripts

A script is a file whose first line names the program that runs it: the mark `#!`, the
interpreter, and at most one argument, which may hold blanks.  Only the head of the file
counts.  `Script.interpreter?` gives nothing for a file that is no script, and for one whose
interpreter the head may have cut off.
-/

namespace InlineCheck.Script

/-- The program that runs a script, and what it is told before the script's own place. -/
structure Interpreter where
  program : List UInt8
  argument? : Option (List UInt8)
deriving DecidableEq, Repr

/-- How many bytes of a file are looked at. -/
def headSize : Nat := 256

/-- The first bytes of a file.  What a shorter file lacks is zero. -/
def head (bytes : List UInt8) : List UInt8 :=
  (bytes ++ List.replicate headSize 0).take headSize

/-- A space or a tab. -/
def isBlank (b : UInt8) : Bool :=
  b = 0x20 || b = 0x09

/-- Whether the name of an interpreter ends before the byte. -/
def endsName (b : UInt8) : Bool :=
  isBlank b || b = 0

/-- The first line without the mark and without blanks around it.  A line that goes on beyond
the head counts as far as the head goes, if the name of the interpreter ends in it. -/
def firstLine? (bytes : List UInt8) : Option (List UInt8) :=
  match head bytes with
  | 0x23 :: 0x21 :: rest =>
    let start := rest.dropWhile isBlank
    if (rest.takeWhile (· ≠ 0)).contains 0x0A then some (trimEnd (start.takeWhile (· ≠ 0x0A)))
    else if start.any endsName then some (trimEnd start.dropLast)
    else none
  | _ => none
where
  /-- Drops the blanks at the end. -/
  trimEnd (line : List UInt8) : List UInt8 :=
    (line.reverse.dropWhile isBlank).reverse

/-- The interpreter that the first line of a file names. -/
def interpreter? (bytes : List UInt8) : Option Interpreter :=
  match firstLine? bytes with
  | none => none
  | some [] => none
  | some (b :: line) =>
    let name := (b :: line).takeWhile (!endsName ·)
    match (b :: line).dropWhile (!endsName ·) with
    | [] => some ⟨name, none⟩
    | c :: rest =>
      if c = 0 then some ⟨name, none⟩
      else some ⟨name, some ((rest.dropWhile isBlank).takeWhile (· ≠ 0))⟩

end InlineCheck.Script
