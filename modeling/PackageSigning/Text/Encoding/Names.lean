/-!
# Names of character encodings

A character encoding is asked for by any of its names. Case does not matter, a
run of characters other than ASCII letters, digits and full stops counts as one
underscore, and such a run at either end does not count at all. The answer is
the canonical name of the encoding.

`aliasTable` holds the other names, in which a full stop may also stand for an
underscore; `mainTable` holds the names under which an encoding is filed.
-/

namespace PackageSigning.Text.Encoding

/-- Other names of encodings, each with the canonical name. -/
def aliasTable : List (String × String) :=
  [("037", "cp037"), ("1026", "cp1026"), ("1125", "cp1125"),
   ("1140", "cp1140"), ("1250", "cp1250"), ("1251", "cp1251"),
   ("1252", "cp1252"), ("1253", "cp1253"), ("1254", "cp1254"),
   ("1255", "cp1255"), ("1256", "cp1256"), ("1257", "cp1257"),
   ("1258", "cp1258"), ("273", "cp273"), ("424", "cp424"),
   ("437", "cp437"), ("500", "cp500"), ("646", "ascii"),
   ("775", "cp775"), ("850", "cp850"), ("852", "cp852"),
   ("855", "cp855"), ("857", "cp857"), ("858", "cp858"),
   ("860", "cp860"), ("861", "cp861"), ("862", "cp862"),
   ("863", "cp863"), ("864", "cp864"), ("865", "cp865"),
   ("866", "cp866"), ("869", "cp869"), ("8859", "iso8859-1"),
   ("932", "cp932"), ("936", "gbk"), ("949", "cp949"),
   ("950", "cp950"), ("ansi_x3.4_1968", "ascii"), ("ansi_x3.4_1986", "ascii"),
   ("ansi_x3_4_1968", "ascii"), ("arabic", "iso8859-6"), ("asmo_708", "iso8859-6"),
   ("base64", "base64"), ("base_64", "base64"), ("big5_hkscs", "big5hkscs"),
   ("big5_tw", "big5"), ("bz2", "bz2"), ("chinese", "gb2312"),
   ("cp1051", "hp-roman8"), ("cp1361", "johab"), ("cp154", "ptcp154"),
   ("cp367", "ascii"), ("cp65001", "utf-8"), ("cp819", "iso8859-1"),
   ("cp866u", "cp1125"), ("cp936", "gbk"), ("cp_gr", "cp869"),
   ("cp_is", "cp861"), ("csascii", "ascii"), ("csbig5", "big5"),
   ("csibm037", "cp037"), ("csibm1026", "cp1026"), ("csibm273", "cp273"),
   ("csibm424", "cp424"), ("csibm500", "cp500"), ("csibm855", "cp855"),
   ("csibm857", "cp857"), ("csibm858", "cp858"), ("csibm860", "cp860"),
   ("csibm861", "cp861"), ("csibm863", "cp863"), ("csibm864", "cp864"),
   ("csibm865", "cp865"), ("csibm866", "cp866"), ("csibm869", "cp869"),
   ("csiso2022jp", "iso2022_jp"), ("csiso2022kr", "iso2022_kr"), ("csiso58gb231280", "gb2312"),
   ("csisolatin1", "iso8859-1"), ("csisolatin2", "iso8859-2"), ("csisolatin3", "iso8859-3"),
   ("csisolatin4", "iso8859-4"), ("csisolatin5", "iso8859-9"), ("csisolatin6", "iso8859-10"),
   ("csisolatinarabic", "iso8859-6"), ("csisolatincyrillic", "iso8859-5"), ("csisolatingreek", "iso8859-7"),
   ("csisolatinhebrew", "iso8859-8"), ("cskoi8r", "koi8-r"), ("cspc775baltic", "cp775"),
   ("cspc850multilingual", "cp850"), ("cspc862latinhebrew", "cp862"), ("cspc8codepage437", "cp437"),
   ("cspcp852", "cp852"), ("csptcp154", "ptcp154"), ("csshiftjis", "shift_jis"),
   ("cyrillic", "iso8859-5"), ("cyrillic_asian", "ptcp154"), ("ebcdic_cp_be", "cp500"),
   ("ebcdic_cp_ca", "cp037"), ("ebcdic_cp_ch", "cp500"), ("ebcdic_cp_he", "cp424"),
   ("ebcdic_cp_nl", "cp037"), ("ebcdic_cp_us", "cp037"), ("ebcdic_cp_wt", "cp037"),
   ("ecma_114", "iso8859-6"), ("ecma_118", "iso8859-7"), ("elot_928", "iso8859-7"),
   ("euc_cn", "gb2312"), ("euc_jis2004", "euc_jis_2004"), ("euccn", "gb2312"),
   ("eucgb2312_cn", "gb2312"), ("eucjis2004", "euc_jis_2004"), ("eucjisx0213", "euc_jisx0213"),
   ("eucjp", "euc_jp"), ("euckr", "euc_kr"), ("gb18030_2000", "gb18030"),
   ("gb2312_1980", "gb2312"), ("gb2312_80", "gb2312"), ("greek", "iso8859-7"),
   ("greek8", "iso8859-7"), ("hebrew", "iso8859-8"), ("hex", "hex"),
   ("hkscs", "big5hkscs"), ("hz_gb", "hz"), ("hz_gb_2312", "hz"),
   ("hzgb", "hz"), ("ibm037", "cp037"), ("ibm039", "cp037"),
   ("ibm1026", "cp1026"), ("ibm1051", "hp-roman8"), ("ibm1125", "cp1125"),
   ("ibm1140", "cp1140"), ("ibm273", "cp273"), ("ibm367", "ascii"),
   ("ibm424", "cp424"), ("ibm437", "cp437"), ("ibm500", "cp500"),
   ("ibm775", "cp775"), ("ibm819", "iso8859-1"), ("ibm850", "cp850"),
   ("ibm852", "cp852"), ("ibm855", "cp855"), ("ibm857", "cp857"),
   ("ibm858", "cp858"), ("ibm860", "cp860"), ("ibm861", "cp861"),
   ("ibm862", "cp862"), ("ibm863", "cp863"), ("ibm864", "cp864"),
   ("ibm865", "cp865"), ("ibm866", "cp866"), ("ibm869", "cp869"),
   ("iso2022jp", "iso2022_jp"), ("iso2022jp_1", "iso2022_jp_1"), ("iso2022jp_2", "iso2022_jp_2"),
   ("iso2022jp_2004", "iso2022_jp_2004"), ("iso2022jp_3", "iso2022_jp_3"), ("iso2022jp_ext", "iso2022_jp_ext"),
   ("iso2022kr", "iso2022_kr"), ("iso646_us", "ascii"), ("iso8859", "iso8859-1"),
   ("iso8859_1", "iso8859-1"), ("iso_2022_jp", "iso2022_jp"), ("iso_2022_jp_1", "iso2022_jp_1"),
   ("iso_2022_jp_2", "iso2022_jp_2"), ("iso_2022_jp_2004", "iso2022_jp_2004"), ("iso_2022_jp_3", "iso2022_jp_3"),
   ("iso_2022_jp_ext", "iso2022_jp_ext"), ("iso_2022_kr", "iso2022_kr"), ("iso_646.irv_1991", "ascii"),
   ("iso_8859_1", "iso8859-1"), ("iso_8859_10", "iso8859-10"), ("iso_8859_10_1992", "iso8859-10"),
   ("iso_8859_11", "iso8859-11"), ("iso_8859_11_2001", "iso8859-11"), ("iso_8859_13", "iso8859-13"),
   ("iso_8859_14", "iso8859-14"), ("iso_8859_14_1998", "iso8859-14"), ("iso_8859_15", "iso8859-15"),
   ("iso_8859_16", "iso8859-16"), ("iso_8859_16_2001", "iso8859-16"), ("iso_8859_1_1987", "iso8859-1"),
   ("iso_8859_2", "iso8859-2"), ("iso_8859_2_1987", "iso8859-2"), ("iso_8859_3", "iso8859-3"),
   ("iso_8859_3_1988", "iso8859-3"), ("iso_8859_4", "iso8859-4"), ("iso_8859_4_1988", "iso8859-4"),
   ("iso_8859_5", "iso8859-5"), ("iso_8859_5_1988", "iso8859-5"), ("iso_8859_6", "iso8859-6"),
   ("iso_8859_6_1987", "iso8859-6"), ("iso_8859_7", "iso8859-7"), ("iso_8859_7_1987", "iso8859-7"),
   ("iso_8859_8", "iso8859-8"), ("iso_8859_8_1988", "iso8859-8"), ("iso_8859_9", "iso8859-9"),
   ("iso_8859_9_1989", "iso8859-9"), ("iso_celtic", "iso8859-14"), ("iso_ir_100", "iso8859-1"),
   ("iso_ir_101", "iso8859-2"), ("iso_ir_109", "iso8859-3"), ("iso_ir_110", "iso8859-4"),
   ("iso_ir_126", "iso8859-7"), ("iso_ir_127", "iso8859-6"), ("iso_ir_138", "iso8859-8"),
   ("iso_ir_144", "iso8859-5"), ("iso_ir_148", "iso8859-9"), ("iso_ir_157", "iso8859-10"),
   ("iso_ir_166", "tis-620"), ("iso_ir_199", "iso8859-14"), ("iso_ir_226", "iso8859-16"),
   ("iso_ir_58", "gb2312"), ("iso_ir_6", "ascii"), ("jisx0213", "euc_jis_2004"),
   ("korean", "euc_kr"), ("ks_c_5601", "euc_kr"), ("ks_c_5601_1987", "euc_kr"),
   ("ks_x_1001", "euc_kr"), ("ksc5601", "euc_kr"), ("ksx1001", "euc_kr"),
   ("kz_1048", "kz1048"), ("l1", "iso8859-1"), ("l10", "iso8859-16"),
   ("l2", "iso8859-2"), ("l3", "iso8859-3"), ("l4", "iso8859-4"),
   ("l5", "iso8859-9"), ("l6", "iso8859-10"), ("l7", "iso8859-13"),
   ("l8", "iso8859-14"), ("l9", "iso8859-15"), ("latin", "iso8859-1"),
   ("latin1", "iso8859-1"), ("latin10", "iso8859-16"), ("latin2", "iso8859-2"),
   ("latin3", "iso8859-3"), ("latin4", "iso8859-4"), ("latin5", "iso8859-9"),
   ("latin6", "iso8859-10"), ("latin7", "iso8859-13"), ("latin8", "iso8859-14"),
   ("latin9", "iso8859-15"), ("mac_centeuro", "mac-latin2"), ("maccentraleurope", "mac-latin2"),
   ("maccyrillic", "mac-cyrillic"), ("macgreek", "mac-greek"), ("maciceland", "mac-iceland"),
   ("macintosh", "mac-roman"), ("maclatin2", "mac-latin2"), ("macroman", "mac-roman"),
   ("macturkish", "mac-turkish"), ("ms1361", "johab"), ("ms932", "cp932"),
   ("ms936", "gbk"), ("ms949", "cp949"), ("ms950", "cp950"),
   ("ms_kanji", "cp932"), ("mskanji", "cp932"), ("pt154", "ptcp154"),
   ("quopri", "quopri"), ("quoted_printable", "quopri"), ("quotedprintable", "quopri"),
   ("r8", "hp-roman8"), ("rk1048", "kz1048"), ("roman8", "hp-roman8"),
   ("rot13", "rot-13"), ("ruscii", "cp1125"), ("s_jis", "shift_jis"),
   ("s_jis_2004", "shift_jis_2004"), ("s_jisx0213", "shift_jisx0213"), ("shiftjis", "shift_jis"),
   ("shiftjis2004", "shift_jis_2004"), ("shiftjisx0213", "shift_jisx0213"), ("sjis", "shift_jis"),
   ("sjis_2004", "shift_jis_2004"), ("sjisx0213", "shift_jisx0213"), ("strk1048_2002", "kz1048"),
   ("thai", "iso8859-11"), ("tis620", "tis-620"), ("tis_620_0", "tis-620"),
   ("tis_620_2529_0", "tis-620"), ("tis_620_2529_1", "tis-620"), ("u16", "utf-16"),
   ("u32", "utf-32"), ("u7", "utf-7"), ("u8", "utf-8"),
   ("u_jis", "euc_jp"), ("uhc", "cp949"), ("ujis", "euc_jp"),
   ("unicode_1_1_utf_7", "utf-7"), ("unicodebigunmarked", "utf-16-be"), ("unicodelittleunmarked", "utf-16-le"),
   ("us", "ascii"), ("us_ascii", "ascii"), ("utf", "utf-8"),
   ("utf16", "utf-16"), ("utf32", "utf-32"), ("utf7", "utf-7"),
   ("utf8", "utf-8"), ("utf8_ucs2", "utf-8"), ("utf8_ucs4", "utf-8"),
   ("utf_16be", "utf-16-be"), ("utf_16le", "utf-16-le"), ("utf_32be", "utf-32-be"),
   ("utf_32le", "utf-32-le"), ("uu", "uu"), ("windows_1250", "cp1250"),
   ("windows_1251", "cp1251"), ("windows_1252", "cp1252"), ("windows_1253", "cp1253"),
   ("windows_1254", "cp1254"), ("windows_1255", "cp1255"), ("windows_1256", "cp1256"),
   ("windows_1257", "cp1257"), ("windows_1258", "cp1258"), ("x_mac_japanese", "shift_jis"),
   ("x_mac_korean", "euc_kr"), ("x_mac_simp_chinese", "gb2312"), ("x_mac_trad_chinese", "big5"),
   ("zip", "zlib"), ("zlib", "zlib")]

/-- The names under which encodings are filed, each with the canonical name. -/
def mainTable : List (String × String) :=
  [("ascii", "ascii"), ("base64_codec", "base64"), ("big5", "big5"),
   ("big5hkscs", "big5hkscs"), ("bz2_codec", "bz2"), ("charmap", "charmap"),
   ("cp037", "cp037"), ("cp1006", "cp1006"), ("cp1026", "cp1026"),
   ("cp1125", "cp1125"), ("cp1140", "cp1140"), ("cp1250", "cp1250"),
   ("cp1251", "cp1251"), ("cp1252", "cp1252"), ("cp1253", "cp1253"),
   ("cp1254", "cp1254"), ("cp1255", "cp1255"), ("cp1256", "cp1256"),
   ("cp1257", "cp1257"), ("cp1258", "cp1258"), ("cp273", "cp273"),
   ("cp424", "cp424"), ("cp437", "cp437"), ("cp500", "cp500"),
   ("cp720", "cp720"), ("cp737", "cp737"), ("cp775", "cp775"),
   ("cp850", "cp850"), ("cp852", "cp852"), ("cp855", "cp855"),
   ("cp856", "cp856"), ("cp857", "cp857"), ("cp858", "cp858"),
   ("cp860", "cp860"), ("cp861", "cp861"), ("cp862", "cp862"),
   ("cp863", "cp863"), ("cp864", "cp864"), ("cp865", "cp865"),
   ("cp866", "cp866"), ("cp869", "cp869"), ("cp874", "cp874"),
   ("cp875", "cp875"), ("cp932", "cp932"), ("cp949", "cp949"),
   ("cp950", "cp950"), ("euc_jis_2004", "euc_jis_2004"), ("euc_jisx0213", "euc_jisx0213"),
   ("euc_jp", "euc_jp"), ("euc_kr", "euc_kr"), ("gb18030", "gb18030"),
   ("gb2312", "gb2312"), ("gbk", "gbk"), ("hex_codec", "hex"),
   ("hp_roman8", "hp-roman8"), ("hz", "hz"), ("idna", "idna"),
   ("iso2022_jp", "iso2022_jp"), ("iso2022_jp_1", "iso2022_jp_1"), ("iso2022_jp_2", "iso2022_jp_2"),
   ("iso2022_jp_2004", "iso2022_jp_2004"), ("iso2022_jp_3", "iso2022_jp_3"), ("iso2022_jp_ext", "iso2022_jp_ext"),
   ("iso2022_kr", "iso2022_kr"), ("iso8859_10", "iso8859-10"), ("iso8859_11", "iso8859-11"),
   ("iso8859_13", "iso8859-13"), ("iso8859_14", "iso8859-14"), ("iso8859_15", "iso8859-15"),
   ("iso8859_16", "iso8859-16"), ("iso8859_2", "iso8859-2"), ("iso8859_3", "iso8859-3"),
   ("iso8859_4", "iso8859-4"), ("iso8859_5", "iso8859-5"), ("iso8859_6", "iso8859-6"),
   ("iso8859_7", "iso8859-7"), ("iso8859_8", "iso8859-8"), ("iso8859_9", "iso8859-9"),
   ("johab", "johab"), ("koi8_r", "koi8-r"), ("koi8_t", "koi8-t"),
   ("koi8_u", "koi8-u"), ("kz1048", "kz1048"), ("latin_1", "iso8859-1"),
   ("mac_arabic", "mac-arabic"), ("mac_croatian", "mac-croatian"), ("mac_cyrillic", "mac-cyrillic"),
   ("mac_farsi", "mac-farsi"), ("mac_greek", "mac-greek"), ("mac_iceland", "mac-iceland"),
   ("mac_latin2", "mac-latin2"), ("mac_roman", "mac-roman"), ("mac_romanian", "mac-romanian"),
   ("mac_turkish", "mac-turkish"), ("palmos", "palmos"), ("ptcp154", "ptcp154"),
   ("punycode", "punycode"), ("quopri_codec", "quopri"), ("raw_unicode_escape", "raw-unicode-escape"),
   ("rot_13", "rot-13"), ("shift_jis", "shift_jis"), ("shift_jis_2004", "shift_jis_2004"),
   ("shift_jisx0213", "shift_jisx0213"), ("tis_620", "tis-620"), ("undefined", "undefined"),
   ("unicode_escape", "unicode-escape"), ("utf_16", "utf-16"), ("utf_16_be", "utf-16-be"),
   ("utf_16_le", "utf-16-le"), ("utf_32", "utf-32"), ("utf_32_be", "utf-32-be"),
   ("utf_32_le", "utf-32-le"), ("utf_7", "utf-7"), ("utf_8", "utf-8"),
   ("utf_8_sig", "utf-8-sig"), ("uu_codec", "uu"), ("zlib_codec", "zlib")]

/-- Lower-case ASCII letters, digits and full stops stay; `gap` tells whether
other characters have been skipped since the last one that stayed. -/
def foldFrom (started gap : Bool) : List Char → List Char
  | [] => []
  | c :: rest =>
    if c.isAlphanum || c == '.' then
      (if gap && started then ['_', c.toLower] else [c.toLower]) ++ foldFrom true false rest
    else foldFrom started true rest

/-- The form under which names are compared. -/
def foldName (name : String) : List Char := foldFrom false false name.toList

/-- The canonical name of the encoding that `name` stands for. -/
def canonicalName? (name : String) : Option String :=
  let key := foldName name
  let dotless := key.map fun c => if c == '.' then '_' else c
  match aliasTable.lookup (String.ofList key) with
  | some found => some found
  | none =>
    match aliasTable.lookup (String.ofList dotless) with
    | some found => some found
    | none => mainTable.lookup (String.ofList key)

end PackageSigning.Text.Encoding
