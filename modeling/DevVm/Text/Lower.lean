import DevVm.Text.Field

/-!
# Letter case

Words are compared without regard to case: the answer to a question, and the word
`password` in a log line. Those words are spelled in ASCII letters, and no letter outside
ASCII has `y`, `e`, `s`, or a letter of `password`, in its lower-case form, so folding the
ASCII letters decides both tests.
-/

namespace DevVm.Text

/-- A text with its ASCII capitals folded to small letters. -/
def lowerCase (text : List Char) : List Char := text.map Char.toLower

/-- Whether a word in small letters occurs in a text in whatever case. -/
def mentions (word : String) (text : List Char) : Bool := occursIn word.toList (lowerCase text)

end DevVm.Text
