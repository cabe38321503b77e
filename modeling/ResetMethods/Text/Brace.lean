/-!
# ResetMethods.Text.Brace

The delimiters of blocks, under a name for where one of them stands without the other.
-/

namespace ResetMethods
namespace Text

@[match_pattern] abbrev openBrace : String := "\x7b"

@[match_pattern] abbrev closeBrace : String := "\x7d"

@[simp] theorem toList_openBrace : openBrace.toList = ['{'] := rfl

@[simp] theorem toList_closeBrace : closeBrace.toList = ['}'] := rfl

end Text
end ResetMethods
