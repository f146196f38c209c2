/-! The character set of old archives, code page 437. -/

namespace ClassAtlas.CodePage437

/-- The characters of the bytes from 80 on. -/
def upper : List Char :=
  "ÇüéâäàåçêëèïîìÄÅÉæÆôöòûùÿÖÜ¢£¥₧ƒ".toList ++
    "áíóúñÑªº¿⌐¬½¼¡«»░▒▓│┤╡╢╖╕╣║╗╝╜╛┐".toList ++
    "└┴┬├─┼╞╟╚╔╩╦╠═╬╧╨╤╥╙╘╒╓╫╪┘┌█▄▌▐▀".toList ++
    "αßΓπΣσµτΦΘΩδ∞φε∩≡±≥≤⌠⌡÷≈°∙·√ⁿ²■\xa0".toList

def decodeByte (b : UInt8) : Char :=
  if b < 0x80 then Char.ofNat b.toNat else upper[b.toNat - 0x80]?.getD ' '

def decode (bytes : List UInt8) : String :=
  String.ofList (bytes.map decodeByte)

end ClassAtlas.CodePage437
