import FeedFilter.Text.Ranges

namespace FeedFilter.Text

-- The characters with the Unicode property White_Space.
def blankRanges : Ranges :=
  [(0x9, 0xD), (0x20, 0x20), (0x85, 0x85), (0xA0, 0xA0), (0x1680, 0x1680), (0x2000, 0x200A),
    (0x2028, 0x2029), (0x202F, 0x202F), (0x205F, 0x205F), (0x3000, 0x3000)]

def isBlank (c : Char) : Bool :=
  blankRanges.contains c

-- Drops the blanks at both ends and leaves those between.
def trimBlanks (text : String) : String :=
  String.ofList ((text.toList.dropWhile isBlank).reverse.dropWhile isBlank).reverse

example : trimBlanks "\u00a0 a b\u3000\n" = "a b" := by decide

-- A zero-width space has no width, but it is no blank.
example : trimBlanks "\u200ba" = "\u200ba" := by decide

end FeedFilter.Text
