import DataQuality.Pattern.Basic
import DataQuality.Text.Basic
import DataQuality.Text.Case

/-!
# Properties of characters

The names by which the Unicode standard knows properties of characters, kinds of characters and
scripts, long and short ones alike, and the properties that have values. Case, blanks, dashes and
the syllable "is" in front make no difference to a name.
-/

namespace DataQuality

namespace CharProperty

/-- The words of lines. -/
def words (lines : List String) : List String :=
  lines.flatMap fun line ↦ (Text.splitAll ' ' line.toList).map String.ofList

/-- The properties that a character has or has not. -/
def binaryNames : List String := words
  ["asciihexdigit ahex alphabetic alpha bidicontrol bidic bidimirrored bidim caseignorable ci",
    "cased changeswhencasefolded cwcf changeswhencasemapped cwcm changeswhenlowercased cwl",
    "changeswhentitlecased cwt changeswhenuppercased cwu dash defaultignorablecodepoint di",
    "deprecated dep diacritic dia emoji emojicomponent ecomp emojimodifier emod",
    "emojimodifierbase ebase emojipresentation epres extendedpictographic extpict extender ext",
    "graphemebase grbase graphemeextend grext graphemelink grlink hexdigit hex hyphen",
    "idcompatmathcontinue idcompatmathstart idcontinue idc idsbinaryoperator idsb idstart ids",
    "idstrinaryoperator idst idsunaryoperator idsu ideographic ideo joincontrol joinc",
    "logicalorderexception loe lowercase lower math modifiercombiningmark mcm",
    "noncharactercodepoint nchar otheralphabetic oalpha otherdefaultignorablecodepoint odi",
    "othergraphemeextend ogrext otheridcontinue oidc otheridstart oids otherlowercase olower",
    "othermath omath otheruppercase oupper patternsyntax patsyn patternwhitespace patws",
    "prependedconcatenationmark pcm quotationmark qmark radical regionalindicator ri",
    "sentenceterminal sterm softdotted sd terminalpunctuation term unifiedideograph uideo",
    "uppercase upper variationselector vs whitespace wspace space xidcontinue xidc xidstart",
    "xids"]

/-- The kinds of characters. Halves of pairs are no characters, so they have no name here. -/
def kindNames : List String := words
  ["any assigned ascii c other cc control cntrl cf format cn unassigned co privateuse l letter",
    "lc casedletter ll lowercaseletter lm modifierletter lo otherletter lt titlecaseletter lu",
    "uppercaseletter m mark combiningmark mc spacingmark me enclosingmark mn nonspacingmark n",
    "number nd decimalnumber digit nl letternumber no othernumber p punctuation punct pc",
    "connectorpunctuation pd dashpunctuation pe closepunctuation pf finalpunctuation pi",
    "initialpunctuation po otherpunctuation ps openpunctuation s symbol sc currencysymbol sk",
    "modifiersymbol sm mathsymbol so othersymbol z separator zl lineseparator zp",
    "paragraphseparator zs spaceseparator"]

/-- The scripts. -/
def scriptNames : List String := words
  ["adlm adlam aghb caucasianalbanian ahom arab arabic armi imperialaramaic armn armenian avst",
    "avestan bali balinese bamu bamum bass bassavah batk batak beng bengali bhks bhaiksuki bopo",
    "bopomofo brah brahmi brai braille bugi buginese buhd buhid cakm chakma cans",
    "canadianaboriginal cari carian cham cher cherokee chrs chorasmian copt coptic qaac cpmn",
    "cyprominoan cprt cypriot cyrl cyrillic deva devanagari diak divesakuru dogr dogra dsrt",
    "deseret dupl duployan egyp egyptianhieroglyphs elba elbasan elym elymaic ethi ethiopic",
    "gara garay geor georgian glag glagolitic gong gunjalagondi gonm masaramgondi goth gothic",
    "gran grantha grek greek gujr gujarati gukh gurungkhema guru gurmukhi hang hangul hani han",
    "hano hanunoo hatr hatran hebr hebrew hira hiragana hluw anatolianhieroglyphs hmng",
    "pahawhhmong hmnp nyiakengpuachuehmong hung oldhungarian ital olditalic java javanese kali",
    "kayahli kana katakana kawi khar kharoshthi khmr khmer khoj khojki kits khitansmallscript",
    "knda kannada krai kiratrai kthi kaithi lana taitham laoo lao latn latin lepc lepcha limb",
    "limbu lina lineara linb linearb lisu lyci lycian lydi lydian mahj mahajani maka makasar",
    "mand mandaic mani manichaean marc marchen medf medefaidrin mend mendekikakui merc",
    "meroiticcursive mero meroitichieroglyphs mlym malayalam modi mong mongolian mroo mro mtei",
    "meeteimayek mult multani mymr myanmar nagm nagmundari nand nandinagari narb",
    "oldnortharabian nbat nabataean newa nkoo nko nshu nushu ogam ogham olck olchiki onao",
    "olonal orkh oldturkic orya oriya osge osage osma osmanya ougr olduyghur palm palmyrene",
    "pauc paucinhau perm oldpermic phag phagspa phli inscriptionalpahlavi phlp psalterpahlavi",
    "phnx phoenician plrd miao prti inscriptionalparthian rjng rejang rohg hanifirohingya runr",
    "runic samr samaritan sarb oldsoutharabian saur saurashtra sgnw signwriting shaw shavian",
    "shrd sharada sidd siddham sind khudawadi sinh sinhala sogd sogdian sogo oldsogdian sora",
    "sorasompeng soyo soyombo sund sundanese sunu sunuwar sylo sylotinagri syrc syriac tagb",
    "tagbanwa takr takri tale taile talu newtailue taml tamil tang tangut tavt taiviet telu",
    "telugu tfng tifinagh tglg tagalog thaa thaana thai tibt tibetan tirh tirhuta tnsa tangsa",
    "todr todhri toto tutg tulutigalari ugar ugaritic vaii vai vith vithkuqi wara warangciti",
    "wcho wancho xpeo oldpersian xsux cuneiform yezi yezidi yiii yi zanb zanabazarsquare zinh",
    "inherited qaai zyyy common"]

/-- The versions of the standard in which characters appeared. -/
def versionNames : List String := words
  ["1.1 v11 2.0 v20 2.1 v21 3.0 v30 3.1 v31 3.2 v32 4.0 v40 4.1 v41 5.0 v50 5.1 v51 5.2 v52",
    "6.0 v60 6.1 v61 6.2 v62 6.3 v63 7.0 v70 8.0 v80 9.0 v90 10.0 v100 11.0 v110 12.0 v120 12.1",
    "v121 13.0 v130 14.0 v140 15.0 v150 15.1 v151 16.0 v160"]

/-- The ways a character takes part in the characters that a reader sees. -/
def graphemeBreaks : List String := words
  ["cn control cr ex extend l lf lv lvt pp prepend ri regionalindicator sm spacingmark t v zwj"]

/-- The ways a character takes part in words. -/
def wordBreaks : List String := words
  ["le aletter cr dq doublequote extend ex extendnumlet fo format hl hebrewletter ka katakana",
    "lf mb midnumlet ml midletter mn midnum nl newline nu numeric ri regionalindicator sq",
    "singlequote wsegspace zwj"]

/-- The ways a character takes part in sentences. -/
def sentenceBreaks : List String := words
  ["at aterm cl close cr ex extend fo format le oletter lf lo lower nu numeric sc scontinue se",
    "sep sp st sterm up upper"]

/-- The values of a property that has some. -/
def values : String → List String
  | "gc" | "generalcategory" => kindNames
  | "sc" | "script" | "scx" | "scriptextensions" => scriptNames
  | "age" => versionNames
  | "gcb" | "graphemeclusterbreak" => graphemeBreaks
  | "wb" | "wordbreak" => wordBreaks
  | "sb" | "sentencebreak" => sentenceBreaks
  | _ => []

/-- A name as it is looked up. The short name of kind "other" is not what is left of a comment's. -/
def normalName (name : List Char) : String :=
  let folded := name.map Text.foldAscii
  let (shortened, rest) := match folded with
    | 'i' :: 's' :: rest => (true, rest)
    | cs => (false, cs)
  let kept := rest.filter fun c ↦ c.toNat < 0x80 && !(c == ' ' || c == '_' || c == '-')
  if shortened && kept = ['c'] then "isc" else String.ofList kept

/-- Whether there is a property. -/
def isKnown : CharProperty → Bool
  | named name => [binaryNames, kindNames, scriptNames].any (·.contains name)
  | valued name value => (values name).contains value

/-- Splits at the first occurrence of two characters. -/
def cutPair (a b : Char) : List Char → Option (List Char × List Char)
  | [] => none
  | [_] => none
  | c :: d :: rest =>
    if c = a ∧ d = b then some ([], rest)
    else (cutPair a b (d :: rest)).map fun p ↦ (c :: p.1, p.2)

/-- The property that a text between braces means, and whether its characters are excluded. -/
def ofText (text : List Char) : CharProperty × Bool :=
  match cutPair '!' '=' text with
  | some (name, value) => (valued (normalName name) (normalName value), true)
  | none =>
    match Text.cut ':' text <|> Text.cut '=' text with
    | some (name, value) => (valued (normalName name) (normalName value), false)
    | none => (named (normalName text), false)

end CharProperty

end DataQuality
