set_option autoImplicit false

namespace Chip8.Text

def isLayout (c : Char) : Bool :=
  c = '\t' || c = '\n' || c = '\x0c' || c = '\r'

def isShown (c : Char) : Bool :=
  isLayout c || (' ' ≤ c && c ≠ '\x7f')

def between (low high c : Char) : Bool :=
  low ≤ c && c ≤ high

inductive Sequence where
  | escape
  | intermediate
  | control
  | deviceEntry
  | deviceParameter
  | deviceIntermediate
  | string
  | command
deriving DecidableEq, Repr

inductive Place where
  | text
  | inside (s : Sequence)
  | interrupted (s : Sequence)
deriving DecidableEq, Repr

namespace Sequence

def showsLayout : Sequence → Bool
  | .escape | .intermediate | .control => true
  | _ => false

-- The byte that ends a string ends it also where it occurs within the encoding of a character.
def isTerminator (c : Char) : Bool :=
  (String.utf8EncodeChar c).contains 0x9C

def next : Sequence → Char → Place
  | .escape, c =>
    if c = '[' then .inside .control
    else if c = ']' then .inside .command
    else if c = 'P' then .inside .deviceEntry
    else if c = 'X' || c = '^' || c = '_' then .inside .string
    else if between ' ' '/' c then .inside .intermediate
    else if between '0' '~' c then .text
    else .inside .escape
  | .intermediate, c => if between '0' '~' c then .text else .inside .intermediate
  | .control, c => if between '@' '~' c then .text else .inside .control
  | .deviceEntry, c =>
    if between ' ' '/' c then .inside .deviceIntermediate
    else if between '0' '?' c then .inside .deviceParameter
    else if between '@' '~' c then .inside .string
    else .inside .deviceEntry
  | .deviceParameter, c =>
    if between ' ' '/' c then .inside .deviceIntermediate
    else if between '<' '~' c then .inside .string
    else .inside .deviceParameter
  | .deviceIntermediate, c =>
    if between '0' '~' c then .inside .string else .inside .deviceIntermediate
  | .string, c => if isTerminator c then .text else .inside .string
  | .command, c => if c = '\x07' then .text else .inside .command

end Sequence

namespace Place

-- A tab or a line end within a sequence interrupts it: what follows is shown, up to the next
-- control, with which the sequence goes on. A character beyond ASCII puts an end to it.
def next (p : Place) (c : Char) : Place × Bool :=
  if c = '\x1b' then (.inside .escape, false)
  else if c = '\x18' || c = '\x1a' then (.text, false)
  else
    match p with
    | .text => (.text, isShown c)
    | .inside s =>
      if isLayout c && s.showsLayout then (.interrupted s, true) else (s.next c, false)
    | .interrupted s =>
      if !isShown c then (.inside s, false)
      else (if c ≤ '~' then .interrupted s else .text, true)

def visible : Place → List Char → List Char
  | _, [] => []
  | p, c :: cs =>
    match p.next c with
    | (next, true) => c :: next.visible cs
    | (next, false) => next.visible cs

end Place

def visible (cs : List Char) : List Char :=
  Place.text.visible cs

end Chip8.Text
