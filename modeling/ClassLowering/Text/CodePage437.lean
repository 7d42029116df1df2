/-! # Code page 437

Names in archives that are not marked as UTF-8 are written in this code page: one byte a
character, the lower half as in ASCII. -/

namespace ClassLowering.CodePage437

/-- The characters of the bytes from `0x80` on. -/
def upperHalf : List Char :=
  ("ÇüéâäàåçêëèïîìÄÅÉæÆôöòûùÿÖÜ¢£¥₧ƒ" ++
    "áíóúñÑªº¿⌐¬½¼¡«»░▒▓│┤╡╢╖╕╣║╗╝╜╛┐" ++
    "└┴┬├─┼╞╟╚╔╩╦╠═╬╧╨╤╥╙╘╒╓╫╪┘┌█▄▌▐▀" ++
    "αßΓπΣσµτΦΘΩδ∞φε∩≡±≥≤⌠⌡÷≈°∙·√ⁿ²■\u00a0").toList

/-- The character of a byte. -/
def charOf (byte : UInt8) : Char :=
  if byte < 0x80 then Char.ofNat byte.toNat
  else upperHalf.getD (byte.toNat - 0x80) ' '

/-- The text of bytes. -/
def decode (bytes : List UInt8) : String := String.ofList (bytes.map charOf)

end ClassLowering.CodePage437
