/-!
# Case images

The full upper-case, lower-case and case-folded images of a character, as far as they can matter in
a comparison with ASCII text. Every character whose image holds an ASCII character is listed. Any
other character outside ASCII has an image outside ASCII and stands for itself here: it can equal
no ASCII text before or after the mapping.
-/

namespace MeetDesk.Text

/-- Characters outside ASCII whose upper-case image holds an ASCII letter. -/
def upperExceptions : List (Char × List Char) :=
  [('\u00df', ['S', 'S']), ('\u0131', ['I']), ('\u0149', ['\u02bc', 'N']), ('\u017f', ['S']),
   ('\u01f0', ['J', '\u030c']), ('\u1e96', ['H', '\u0331']), ('\u1e97', ['T', '\u0308']),
   ('\u1e98', ['W', '\u030a']), ('\u1e99', ['Y', '\u030a']), ('\u1e9a', ['A', '\u02be']),
   ('\ufb00', ['F', 'F']), ('\ufb01', ['F', 'I']), ('\ufb02', ['F', 'L']),
   ('\ufb03', ['F', 'F', 'I']), ('\ufb04', ['F', 'F', 'L']), ('\ufb05', ['S', 'T']),
   ('\ufb06', ['S', 'T'])]

/-- Characters outside ASCII whose case-folded image holds an ASCII letter. -/
def foldExceptions : List (Char × List Char) :=
  [('\u00df', ['s', 's']), ('\u0130', ['i', '\u0307']), ('\u0149', ['\u02bc', 'n']),
   ('\u017f', ['s']), ('\u01f0', ['j', '\u030c']), ('\u1e96', ['h', '\u0331']),
   ('\u1e97', ['t', '\u0308']), ('\u1e98', ['w', '\u030a']), ('\u1e99', ['y', '\u030a']),
   ('\u1e9a', ['a', '\u02be']), ('\u1e9e', ['s', 's']), ('\u212a', ['k']),
   ('\ufb00', ['f', 'f']), ('\ufb01', ['f', 'i']), ('\ufb02', ['f', 'l']),
   ('\ufb03', ['f', 'f', 'i']), ('\ufb04', ['f', 'f', 'l']), ('\ufb05', ['s', 't']),
   ('\ufb06', ['s', 't'])]

/-- Characters outside ASCII whose lower-case image holds an ASCII letter. -/
def lowerExceptions : List (Char × List Char) :=
  [('\u0130', ['i', '\u0307']), ('\u212a', ['k'])]

/-- The image of a character: from the exceptions if it is listed there, else by the ASCII rule. -/
def imageOf (exceptions : List (Char × List Char)) (ascii : Char → Char) (c : Char) : List Char :=
  if c.toNat < 0x80 then [ascii c] else (exceptions.lookup c).getD [c]

/-- The upper-case image of a text. -/
def upper (s : List Char) : List Char := s.flatMap (imageOf upperExceptions Char.toUpper)

/-- The lower-case image of a text. -/
def lower (s : List Char) : List Char := s.flatMap (imageOf lowerExceptions Char.toLower)

/-- The case-folded image of a text: texts that differ in case only have the same one. -/
def fold (s : List Char) : List Char := s.flatMap (imageOf foldExceptions Char.toLower)

/-- The lower-case image of the ASCII letters alone, character by character. -/
def lowerAscii (s : List Char) : List Char := s.map Char.toLower

end MeetDesk.Text
