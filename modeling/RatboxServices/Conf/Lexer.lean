import RatboxServices.Irc.Match
import RatboxServices.Lib.Flex

namespace RatboxServices

open CString

/-! The scanner of the configuration file (`lexer.l`). A file that is included
is left to the caller. -/

namespace Lexer

inductive Rule where
  | include_
  | ccomment
  | newline
  | ws
  | comment
  | number
  | qstring
  | string
  | twodots
  | other
  deriving DecidableEq, Repr

/-- `%option case-insensitive`. -/
def letter (c : Char) : Char → Bool :=
  fun d => asciiLower d == asciiLower c

/-- The `.` of a pattern. -/
def notNewline (c : Char) : Bool :=
  c != '\n'

def isBlank (c : Char) : Bool :=
  c == ' ' || c == '\t'

/-- What ends a `qstring`. -/
def isEnd (c : Char) : Bool :=
  c == '"' || c == '\n'

def isWordStart (c : Char) : Bool :=
  isLetter c || c == '_'

def isWordChar (c : Char) : Bool :=
  isWordStart c || isDigit c

open Pattern in
def ws : Pattern Char :=
  many isBlank

open Pattern in
def comment : Pattern Char :=
  seq (one (· == '#')) (many notNewline)

open Pattern in
def qstring : Pattern Char :=
  seq (one (· == '"')) (seq (many fun c => !isEnd c) (one isEnd))

open Pattern in
def string : Pattern Char :=
  seq (one isWordStart) (many isWordChar)

open Pattern in
def include_ : Pattern Char :=
  seq (word (".include".toList.map letter)) (seq ws
    (alt (seq (one (· == '<')) (seq (many notNewline) (one (· == '>'))))
      (seq (one (· == '"')) (seq (many notNewline) (one (· == '"'))))))

open Pattern in
def rules : List (Pattern Char × Rule) :=
  [ (include_, .include_),
    (word [(· == '/'), (· == '*')], .ccomment),
    (seq (one (· == '\n')) (many notNewline), .newline),
    (ws, .ws),
    (comment, .comment),
    (seq (one isDigit) (many isDigit), .number),
    (qstring, .qstring),
    (string, .string),
    (word [(· == '.'), (· == '.')], .twodots),
    (one notNewline, .other) ]

/-- A message of `yyerror`, with the line it names and the text it shows. -/
structure Error where
  line : Nat
  message : CString
  near : CString
  deriving DecidableEq, Repr

/-- What is unread, what `yymore` keeps for the next token, and the line. -/
structure LexState where
  input : CString
  more : CString := []
  lineno : Nat := 1
  linebuf : CString := []
  errors : List Error := []
  deriving DecidableEq, Repr

inductive Token where
  | number (value : Int)
  | qstring (value : CString)
  | string (value : CString)
  | twodots
  | char (c : Char)
  deriving DecidableEq, Repr

/-- How a call of `yylex` ends: with a token, at a file to include, at the end
of the input, with the end of the process, or past the end of a buffer. -/
inductive Lexed where
  | token (token : Token) (st : LexState)
  | include_ (name : CString) (st : LexState)
  | eof (st : LexState)
  | fatal
  | overflow
  deriving DecidableEq, Repr

inductive Step where
  | next (st : LexState)
  | done (lexed : Lexed)
  deriving DecidableEq, Repr

/-- `BUFSIZE`. -/
def bufSize : Nat := 512

/-- The size of `linebuf`. -/
def linebufSize : Nat := 512

/-- `yyerror`, whose text has the tabs of the line as spaces. -/
def LexState.yyerror (message : CString) (st : LexState) : LexState :=
  { st with
    errors := st.errors ++ [{
      line := st.lineno + 1
      message := message
      near := st.linebuf.map fun c => if c = '\t' then ' ' else c }] }

/-- The walk of `ccomment`, after a star or not. -/
def skipComment (star : Bool) (lineno : Nat) :
    CString → Option (CString × Nat)
  | [] => none
  | c :: rest =>
      if c = '*' then skipComment true lineno rest
      else if star then
        if c = '/' then some (rest, lineno) else skipComment false lineno rest
      else skipComment false (if c = '\n' then lineno + 1 else lineno) rest

/-- The name in an `.include`. -/
def includeName (yytext : CString) : CString :=
  if '<' ∈ yytext then
    ((yytext.dropWhile (· != '<')).drop 1).takeWhile (· != '>')
  else ((yytext.dropWhile (· != '"')).drop 1).takeWhile (· != '"')

def unescape : CString → CString × Bool
  | [] => ([], true)
  | [c] => if c = '\\' then ([], false) else ([c], true)
  | c :: d :: rest =>
      if c = '\\' then
        let (value, whole) := unescape rest
        (d :: value, whole)
      else
        let (value, whole) := unescape (d :: rest)
        (c :: value, whole)

def unterminated : CString := "Unterminated character string".toList

/-- The action of `qstring`, on a text and what follows it. -/
def qstringAct (yytext : CString) (st : LexState) : Step :=
  let yyleng := yytext.length
  if at_ yytext (yyleng - 2) = '\\' then
    -- yyless(yyleng - 1) and yymore()
    .next { st with
      input := yytext.drop (yyleng - 1) ++ st.input
      more := yytext.take (yyleng - 1) }
  else if bufSize + 1 < yyleng then .done .overflow
  else
    let stored := yytext.drop 1
    if at_ stored (yyleng - 2) ≠ '"' then .next (st.yyerror unterminated)
    else
      let (value, whole) := unescape (stored.take (yyleng - 2))
      .done (.token (.qstring value)
        (if whole then st else st.yyerror unterminated))

def hashcomment (yytext : CString) (st : LexState) : LexState :=
  if strcasecmp (yytext.take 8) "#include".toList then
    st.yyerror "You probably meant '.include', skipping".toList
  else st

def act (rule : Rule) (yytext : CString) (st : LexState) : Step :=
  match rule with
  | .include_ => .done (.include_ (includeName yytext) st)
  | .ccomment =>
      match skipComment false st.lineno st.input with
      | none => .done .fatal
      | some (rest, lineno) => .next { st with input := rest, lineno := lineno }
  | .newline =>
      if linebufSize < yytext.length then .done .overflow
      else
        .next { st with
          input := yytext.drop 1 ++ st.input
          lineno := st.lineno + 1
          linebuf := yytext.drop 1 }
  | .ws => .next st
  | .comment => .next (hashcomment yytext st)
  | .number => .done (.token (.number (atoi yytext)) st)
  | .qstring => qstringAct yytext st
  | .string =>
      if bufSize < yytext.length then .done .overflow
      else .done (.token (.string yytext) st)
  | .twodots => .done (.token .twodots st)
  | .other => .done (.token (.char (at_ yytext 0)) st)

def step (st : LexState) : Step :=
  match st.input with
  | [] => .done (.eof st)
  | _ =>
      match Pattern.choose rules st.input with
      | none => .next { st with input := st.input.drop 1 }
      | some (n, rule) =>
          act rule (st.more ++ st.input.take n)
            { st with input := st.input.drop n, more := [] }

/-- `yylex`, for a number of matches. -/
def lex : Nat → LexState → Option Lexed
  | 0, _ => none
  | matches_ + 1, st =>
      match step st with
      | .done lexed => some lexed
      | .next st => lex matches_ st

/-- A text that `yymore` kept may be read again from its second character, so
there can be as many matches as the square of the characters. -/
def LexState.bound (st : LexState) : Nat :=
  let total := st.more.length + st.input.length
  total * (total + 1) + st.input.length

/-- `yylex`. -/
def yylex (st : LexState) : Option Lexed :=
  lex (st.bound + 1) st

end Lexer

end RatboxServices
