/-
# Texts as bytes

Files and streams hold bytes.  A text is written in UTF-8, and bytes that are not UTF-8
are no text.  The main statement is that written bytes are read back as the text.
-/
import Teletype.Text

namespace Teletype

namespace Text

/-- The bytes of a text in UTF-8. -/
def bytes (t : Text) : ByteArray := (String.ofList t).toByteArray

/-- The text that bytes spell in UTF-8, if they spell one. -/
def ofBytes? (b : ByteArray) : Option Text := (String.fromUTF8? b).map String.toList

/-- **The bytes of a text spell the text.** -/
theorem ofBytes?_bytes (t : Text) : ofBytes? (bytes t) = some t := by
  have valid : (bytes t).IsValidUTF8 := (String.ofList t).isValidUTF8
  have read : String.fromUTF8? (bytes t) = some (String.ofList t) := dif_pos valid
  rw [ofBytes?, read, Option.map_some, String.toList_ofList]

end Text

end Teletype
