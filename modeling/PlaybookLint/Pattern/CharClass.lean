import PlaybookLint.Text.Basic

/-!
# Character classes

The classes of characters that patterns are made of, and the properties that a pattern can name,
each with the characters that have it.

## Main definitions

* `CharProperty.find?` - the property with a name.
* `CharProperty.findValue?` - the property "the value of this property is that".
* `CharClass` - a class of characters.

## Design notes

Patterns are matched with texts in ASCII. Of each property only its members in ASCII are given, and
the two other letters that have a letter of ASCII as a case variant: the long s and the Kelvin sign.
-/

namespace PlaybookLint.CharProperty

/-! ## Properties of characters -/

/-- The names of a property or of several with the same members, divided by spaces, and the ranges
of its members. -/
abbrev Entry := String × List (Nat × Nat)

/-- The general categories. -/
def categories : List Entry := [
  ("c other cc control cntrl", [(0, 31), (127, 127)]),
  ("cf format co privateuse cn unassigned lm modifierletter lo otherletter lt " ++
    "titlecaseletter m mark combiningmark mc spacingmark me enclosingmark mn nonspacingmark " ++
    "nl letternumber no othernumber pf finalpunctuation pi initialpunctuation so othersymbol " ++
    "zl lineseparator zp paragraphseparator", []),
  ("l letter lc casedletter", [(65, 90), (97, 122), (383, 383), (8490, 8490)]),
  ("ll lowercaseletter", [(97, 122), (383, 383)]),
  ("lu uppercaseletter", [(65, 90), (8490, 8490)]),
  ("n number nd decimalnumber digit", [(48, 57)]),
  ("p punctuation punct",
    [(33, 35), (37, 42), (44, 47), (58, 59), (63, 64), (91, 93), (95, 95), (123, 123), (125,
    125)]),
  ("pc connectorpunctuation", [(95, 95)]),
  ("pd dashpunctuation", [(45, 45)]),
  ("pe closepunctuation", [(41, 41), (93, 93), (125, 125)]),
  ("po otherpunctuation",
    [(33, 35), (37, 39), (42, 42), (44, 44), (46, 47), (58, 59), (63, 64), (92, 92)]),
  ("ps openpunctuation", [(40, 40), (91, 91), (123, 123)]),
  ("s symbol", [(36, 36), (43, 43), (60, 62), (94, 94), (96, 96), (124, 124), (126, 126)]),
  ("sc currencysymbol", [(36, 36)]),
  ("sk modifiersymbol", [(94, 94), (96, 96)]),
  ("sm mathsymbol", [(43, 43), (60, 62), (124, 124), (126, 126)]),
  ("z separator zs spaceseparator", [(32, 32)]),
  ("any assigned", [(0, 127), (383, 383), (8490, 8490)]),
  ("ascii", [(0, 127)])]

/-- The properties that a character has or has not. -/
def binaries : List Entry := [
  ("ahex asciihexdigit hex hexdigit", [(48, 57), (65, 70), (97, 102)]),
  ("alpha alphabetic cased cwcm changeswhencasemapped ids idstart xids xidstart",
    [(65, 90), (97, 122), (383, 383), (8490, 8490)]),
  ("bidic bidicontrol di defaultignorablecodepoint dep deprecated emod emojimodifier ebase " ++
    "emojimodifierbase epres emojipresentation extpict extendedpictographic ext extender " ++
    "grext graphemeextend idsb idsbinaryoperator idst idstrinaryoperator ideo ideographic " ++
    "joinc joincontrol loe logicalorderexception nchar noncharactercodepoint pcm " ++
    "prependedconcatenationmark radical ri regionalindicator uideo unifiedideograph vs " ++
    "variationselector", []),
  ("bidim bidimirrored",
    [(40, 41), (60, 60), (62, 62), (91, 91), (93, 93), (123, 123), (125, 125)]),
  ("ci caseignorable", [(39, 39), (46, 46), (58, 58), (94, 94), (96, 96)]),
  ("cwcf changeswhencasefolded", [(65, 90), (383, 383), (8490, 8490)]),
  ("cwl changeswhenlowercased upper uppercase", [(65, 90), (8490, 8490)]),
  ("cwt changeswhentitlecased cwu changeswhenuppercased lower lowercase", [(97, 122), (383, 383)]),
  ("dash", [(45, 45)]),
  ("dia diacritic", [(94, 94), (96, 96)]),
  ("emoji ecomp emojicomponent", [(35, 35), (42, 42), (48, 57)]),
  ("grbase graphemebase", [(32, 126), (383, 383), (8490, 8490)]),
  ("idc idcontinue xidc xidcontinue",
    [(48, 57), (65, 90), (95, 95), (97, 122), (383, 383), (8490, 8490)]),
  ("math", [(43, 43), (60, 62), (94, 94), (124, 124), (126, 126)]),
  ("patsyn patternsyntax", [(33, 47), (58, 64), (91, 94), (96, 96), (123, 126)]),
  ("patws patternwhitespace wspace whitespace space", [(9, 13), (32, 32)]),
  ("qmark quotationmark", [(34, 34), (39, 39)]),
  ("sterm sentenceterminal", [(33, 33), (46, 46), (63, 63)]),
  ("sd softdotted", [(105, 106)]),
  ("term terminalpunctuation", [(33, 33), (44, 44), (46, 46), (58, 59), (63, 63)])]

/-- The scripts. -/
def scripts : List Entry := [
  ("adlm adlam aghb caucasianalbanian ahom arab arabic armi imperialaramaic armn armenian " ++
    "avst avestan bali balinese bamu bamum bass bassavah batk batak beng bengali bhks " ++
    "bhaiksuki bopo bopomofo brah brahmi brai braille bugi buginese buhd buhid cakm chakma " ++
    "cans canadianaboriginal cari carian cham cher cherokee chrs chorasmian copt coptic qaac " ++
    "cpmn cyprominoan cprt cypriot cyrl cyrillic deva devanagari diak divesakuru dogr dogra " ++
    "dsrt deseret dupl duployan egyp egyptianhieroglyphs elba elbasan elym elymaic ethi " ++
    "ethiopic geor georgian glag glagolitic gong gunjalagondi gonm masaramgondi goth gothic " ++
    "gran grantha grek greek gujr gujarati guru gurmukhi hang hangul hani han hano hanunoo " ++
    "hatr hatran hebr hebrew hira hiragana hluw anatolianhieroglyphs hmng pahawhhmong hmnp " ++
    "nyiakengpuachuehmong hung oldhungarian ital olditalic java javanese kali kayahli kana " ++
    "katakana kawi khar kharoshthi khmr khmer khoj khojki kits khitansmallscript knda kannada " ++
    "kthi kaithi lana taitham laoo lao lepc lepcha limb limbu lina lineara linb linearb lisu " ++
    "lyci lycian lydi lydian mahj mahajani maka makasar mand mandaic mani manichaean marc " ++
    "marchen medf medefaidrin mend mendekikakui merc meroiticcursive mero meroitichieroglyphs " ++
    "mlym malayalam modi mong mongolian mroo mro mtei meeteimayek mult multani mymr myanmar " ++
    "nagm nagmundari nand nandinagari narb oldnortharabian nbat nabataean newa nkoo nko nshu " ++
    "nushu ogam ogham olck olchiki orkh oldturkic orya oriya osge osage osma osmanya ougr " ++
    "olduyghur palm palmyrene pauc paucinhau perm oldpermic phag phagspa phli " ++
    "inscriptionalpahlavi phlp psalterpahlavi phnx phoenician plrd miao prti " ++
    "inscriptionalparthian rjng rejang rohg hanifirohingya runr runic samr samaritan sarb " ++
    "oldsoutharabian saur saurashtra sgnw signwriting shaw shavian shrd sharada sidd siddham " ++
    "sind khudawadi sinh sinhala sogd sogdian sogo oldsogdian sora sorasompeng soyo soyombo " ++
    "sund sundanese sylo sylotinagri syrc syriac tagb tagbanwa takr takri tale taile talu " ++
    "newtailue taml tamil tang tangut tavt taiviet telu telugu tfng tifinagh tglg tagalog " ++
    "thaa thaana thai tibt tibetan tirh tirhuta tnsa tangsa toto ugar ugaritic vaii vai vith " ++
    "vithkuqi wara warangciti wcho wancho xpeo oldpersian xsux cuneiform yezi yezidi yiii yi " ++
    "zanb zanabazarsquare zinh inherited qaai", []),
  ("latn latin", [(65, 90), (97, 122), (383, 383), (8490, 8490)]),
  ("zyyy common", [(0, 64), (91, 96), (123, 127)])]

/-- The versions of Unicode, as they are named. Every character of ASCII is older than the first
one. -/
def versions : List String := [
  "1.1", "v11", "2.0", "v20", "2.1", "v21", "3.0", "v30", "3.1", "v31", "3.2", "v32", "4.0", "v40",
  "4.1", "v41", "5.0", "v50", "5.1", "v51", "5.2", "v52", "6.0", "v60", "6.1", "v61", "6.2", "v62",
  "6.3", "v63", "7.0", "v70", "8.0", "v80", "9.0", "v90", "10.0", "v100", "11.0", "v110", "12.0",
  "v120", "12.1", "v121", "13.0", "v130", "14.0", "v140", "15.0", "v150", "15.1", "v151", "16.0",
  "v160"]

/-- The entry in a table for a name. -/
def lookup? (table : List Entry) (name : List Char) : Option (List (Nat × Nat)) :=
  (table.find? fun entry => (Text.words entry.1.toList).contains name).map Prod.snd

/-- A name as it is looked up: in lower case, without blanks, dashes and underscores, and without an
`is` at its beginning. -/
def normalizeName (name : List Char) : List Char :=
  let kept := (name.filter fun c =>
    decide (c.toNat < 128) && !(Text.isBlank c || c = '-' || c = '_')).map Char.toLower
  match name.map Char.toLower, kept with
  | 'i' :: 's' :: _, 'i' :: 's' :: rest => if rest = ['c'] then kept else rest
  | _, _ => kept

/-- The members of the property with a name: a property, a general category or a script. -/
def find? (name : List Char) : Option (List (Nat × Nat)) :=
  let name := normalizeName name
  let ambiguous := ["cf".toList, "sc".toList, "lc".toList].contains name
  (if ambiguous then none else lookup? binaries name) <|>
    lookup? categories name <|> lookup? scripts name

/-- The names of the property that holds the general category. -/
def categoryNames : List (List Char) := ["gc".toList, "generalcategory".toList]

/-- The names of the properties that hold the script. -/
def scriptNames : List (List Char) :=
  ["sc".toList, "script".toList, "scx".toList, "scriptextensions".toList]

/-- The members of the property of having a value for a property. -/
def findValue? (name value : List Char) : Option (List (Nat × Nat)) :=
  let name := normalizeName name
  let value := normalizeName value
  if categoryNames.contains name then lookup? categories value
  else if scriptNames.contains name then lookup? scripts value
  else if name = "age".toList then
    if versions.contains (String.ofList value) then some [(0, 127), (383, 383), (8490, 8490)]
    else none
  else none

end PlaybookLint.CharProperty

namespace PlaybookLint

/-! ## Classes -/

/-- A class of characters. -/
inductive CharClass where
  /-- The characters whose numbers lie in one of the ranges. -/
  | ranges (rs : List (Nat × Nat))
  | union (a b : CharClass)
  | inter (a b : CharClass)
  | diff (a b : CharClass)
  | symmDiff (a b : CharClass)
  | complement (a : CharClass)
  /-- The characters that a class contains in upper or lower case. -/
  | folded (a : CharClass)
  deriving Repr, DecidableEq, Inhabited

namespace CharClass

/-- The characters that differ from a character only in case, itself included. Of the letters
outside ASCII, those that are a variant of one inside are known. -/
def caseVariants (c : Char) : List Char :=
  if c = 's' || c = 'S' || c = 'ſ' then ['s', 'S', 'ſ']
  else if c = 'k' || c = 'K' || c = '\u212A' then ['k', 'K', '\u212A']
  else if c.isAlpha then [c.toLower, c.toUpper]
  else [c]

/-- Whether a class contains a character. -/
def contains : CharClass → Char → Bool
  | .ranges rs, c => rs.any fun r => decide (r.1 ≤ c.toNat) && decide (c.toNat ≤ r.2)
  | .union a b, c => a.contains c || b.contains c
  | .inter a b, c => a.contains c && b.contains c
  | .diff a b, c => a.contains c && !b.contains c
  | .symmDiff a b, c => a.contains c != b.contains c
  | .complement a, c => !a.contains c
  | .folded a, c => (caseVariants c).any a.contains

/-- No character. -/
def nothing : CharClass := .ranges []

/-- Every character. -/
def anything : CharClass := .complement nothing

/-- One character. -/
def single (c : Char) : CharClass := .ranges [(c.toNat, c.toNat)]

/-- The characters from `a` to `b`. -/
def range (a b : Char) : CharClass := .ranges [(a.toNat, b.toNat)]

/-- The characters of a list. -/
def ofList (cs : List Char) : CharClass := .ranges (cs.map fun c => (c.toNat, c.toNat))

/-- The decimal digits. -/
def digits : CharClass := range '0' '9'

/-- The blanks. -/
def blanks : CharClass := .ranges [(9, 13), (32, 32)]

/-- The characters of words. The letters outside ASCII among them are those with a case variant
inside. -/
def wordChars : CharClass :=
  .ranges [(48, 57), (65, 90), (95, 95), (97, 122), (383, 383), (8490, 8490)]

/-- The classes that have a name between `[:` and `:]`. -/
def named : List (String × List (Nat × Nat)) := [
  ("alnum", [(48, 57), (65, 90), (97, 122)]),
  ("alpha", [(65, 90), (97, 122)]),
  ("ascii", [(0, 127)]),
  ("blank", [(9, 9), (32, 32)]),
  ("cntrl", [(0, 31), (127, 127)]),
  ("digit", [(48, 57)]),
  ("graph", [(33, 126)]),
  ("lower", [(97, 122)]),
  ("print", [(32, 126)]),
  ("punct", [(33, 47), (58, 64), (91, 96), (123, 126)]),
  ("space", [(9, 13), (32, 32)]),
  ("upper", [(65, 90)]),
  ("word", [(48, 57), (65, 90), (95, 95), (97, 122)]),
  ("xdigit", [(48, 57), (65, 70), (97, 102)])]

/-- The class with a name. -/
def ofName? (name : List Char) : Option CharClass :=
  (named.lookup (String.ofList name)).map .ranges

end CharClass

end PlaybookLint
