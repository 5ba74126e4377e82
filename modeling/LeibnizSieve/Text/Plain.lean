/-!
Text as a terminal would show it without colours: control sequences and control characters are
left out. Main statement: a text without control characters stays as it is.
-/

namespace LeibnizSieve.Text

/-- How far into a control sequence a text is. -/
inductive Sequence where
  | outside
  | escape
  | selection
  | control
  | device
  | deviceNumbers
  | deviceMarks
  | message
  | command
  deriving DecidableEq, Repr

namespace Sequence

/-- Whether a character has the byte 156, which is the terminator, past the first byte of its
encoding. -/
def holdsTerminator (c : Char) : Bool :=
  let n := c.toNat
  n % 64 = 28 || (0x800 ≤ n && n / 64 % 64 = 28) || (0x10000 ≤ n && n / 4096 % 64 = 28)

def afterWide (s : Sequence) (c : Char) : Sequence :=
  if s = message ∧ holdsTerminator c then outside else s

def afterNarrow (s : Sequence) (c : Char) : Sequence :=
  match s with
  | outside => outside
  | escape =>
    if c = '[' then control
    else if c = ']' then command
    else if c = 'P' then device
    else if c = 'X' ∨ c = '^' ∨ c = '_' then message
    else if ' ' ≤ c ∧ c ≤ '/' then selection
    else if '0' ≤ c ∧ c ≤ '~' then outside
    else escape
  | selection => if '0' ≤ c ∧ c ≤ '~' then outside else selection
  | control => if '@' ≤ c ∧ c ≤ '~' then outside else control
  | device =>
    if ' ' ≤ c ∧ c ≤ '/' then deviceMarks
    else if '0' ≤ c ∧ c ≤ '?' then deviceNumbers
    else if '@' ≤ c ∧ c ≤ '~' then message
    else device
  | deviceNumbers =>
    if ' ' ≤ c ∧ c ≤ '/' then deviceMarks
    else if '<' ≤ c ∧ c ≤ '~' then message
    else deviceNumbers
  | deviceMarks => if '0' ≤ c ∧ c ≤ '~' then message else deviceMarks
  | message => message
  | command => if c = '\x07' then outside else command

def after (s : Sequence) (c : Char) : Sequence :=
  if c = '\x1b' then escape
  else if c = '\x18' ∨ c = '\x1a' then outside
  else if c.toNat < 128 then afterNarrow s c
  else afterWide s c

def isLayout (c : Char) : Bool :=
  c = '\t' || c = '\n' || c = '\x0c' || c = '\r'

def shows (s : Sequence) (c : Char) : Bool :=
  match s with
  | outside => isLayout c || (' ' ≤ c && c ≠ '\x7f')
  | escape | selection | control => isLayout c
  | _ => false

end Sequence

/-- The characters that are shown. Once one is shown, all that follow are, up to the next control
character; only then does a sequence go on that was interrupted. -/
def plainChars (showing : Bool) (s : Sequence) : List Char → List Char
  | [] => []
  | c :: rest =>
    if (if showing then Sequence.outside else s).shows c then
      c :: plainChars true (if c.toNat < 128 then s else .outside) rest
    else plainChars false (s.after c) rest

def plain (text : String) : String :=
  String.ofList (plainChars false .outside text.toList)

theorem plainChars_of_shows (showing : Bool) {text : List Char}
    (h : ∀ c ∈ text, Sequence.outside.shows c = true) :
    plainChars showing .outside text = text := by
  induction text generalizing showing with
  | nil => rfl
  | cons c rest ih =>
    have hc := h c List.mem_cons_self
    simp [plainChars, hc, ih true fun d hd => h d (List.mem_cons_of_mem c hd)]

theorem plain_of_shows {text : String}
    (h : ∀ c ∈ text.toList, Sequence.outside.shows c = true) : plain text = text := by
  rw [plain, plainChars_of_shows false h, String.ofList_toList]

end LeibnizSieve.Text
