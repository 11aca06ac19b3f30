import ChartParsing.Unicode.Property

/-!
# Where a text can be cut

Three properties say where a text can be cut: between what a reader takes for characters, between
words, and between sentences.  Each gives a character one of several values, or none of them.

Such a property is written as the list of its values, and each value as what it holds of unless a value
before it does.  So no character has two values, and the exceptions need not be said again.
`Segmentation.valued?` looks a value up.
-/

namespace ChartParsing.Segmentation

/-- The members of the value with this name, less the characters that were taken before. -/
def valued? (name : String) (taken : CharSet) : List Property → Option CharSet
  | [] => none
  | p :: rest =>
      if p.names.contains name then some (p.set.diff taken)
      else valued? name (taken.union p.set) rest

/-- Marks, and what else extends the character before it; the emoji modifiers do as well. -/
def extending : Property :=
  { Property.graphemeExtend with
    categories := [.me, .mn, .mc], more := Property.graphemeExtend.more ++ " 1F3FB-1F3FF" }

/-- The values for characters as a reader sees them. -/
def graphemes : List Property :=
  [⟨["cr"], [], "D", ""⟩,
   ⟨["lf"], [], "A", ""⟩,
   ⟨["zwj"], [], "200D", ""⟩,
   ⟨["pp", "prepend"], [],
     "600-605 6DD 70F 890-891 8E2 D4E 110BD 110CD 111C2-111C3 113D1 1193F 11941 11A84-11A89 11D46
      11F02",
     ""⟩,
   { extending with names := ["ex", "extend"], categories := [.me, .mn] },
   ⟨["cn", "control"], [.zl, .zp, .cc, .cf],
     "2065 FFF0-FFF8 E0000 E0002-E001F E0080-E00FF E01F0-E0FFF",
     ""⟩,
   ⟨["ri", "regionalindicator"], [], "1F1E6-1F1FF", ""⟩,
   ⟨["sm", "spacingmark"], [.mc],
     "E33 EB3",
     "102B-102C 1038 1062-1064 1067-106D 1083 1087-108C 108F 109A-109C 1A61 1A63-1A64 AA7B AA7D
      11720-11721"⟩,
   ⟨["l"], [], "1100-115F A960-A97C", ""⟩,
   ⟨["v"], [], "1160-11A7 D7B0-D7C6 16D63 16D67-16D6A", ""⟩,
   ⟨["t"], [], "11A8-11FF D7CB-D7FB", ""⟩,
   ⟨["lv"], [],
     "AC00 AC1C AC38 AC54 AC70 AC8C ACA8 ACC4 ACE0 ACFC AD18 AD34 AD50 AD6C AD88 ADA4 ADC0 ADDC
      ADF8 AE14 AE30 AE4C AE68 AE84 AEA0 AEBC AED8 AEF4 AF10 AF2C AF48 AF64 AF80 AF9C AFB8 AFD4
      AFF0 B00C B028 B044 B060 B07C B098 B0B4 B0D0 B0EC B108 B124 B140 B15C B178 B194 B1B0 B1CC
      B1E8 B204 B220 B23C B258 B274 B290 B2AC B2C8 B2E4 B300 B31C B338 B354 B370 B38C B3A8 B3C4
      B3E0 B3FC B418 B434 B450 B46C B488 B4A4 B4C0 B4DC B4F8 B514 B530 B54C B568 B584 B5A0 B5BC
      B5D8 B5F4 B610 B62C B648 B664 B680 B69C B6B8 B6D4 B6F0 B70C B728 B744 B760 B77C B798 B7B4
      B7D0 B7EC B808 B824 B840 B85C B878 B894 B8B0 B8CC B8E8 B904 B920 B93C B958 B974 B990 B9AC
      B9C8 B9E4 BA00 BA1C BA38 BA54 BA70 BA8C BAA8 BAC4 BAE0 BAFC BB18 BB34 BB50 BB6C BB88 BBA4
      BBC0 BBDC BBF8 BC14 BC30 BC4C BC68 BC84 BCA0 BCBC BCD8 BCF4 BD10 BD2C BD48 BD64 BD80 BD9C
      BDB8 BDD4 BDF0 BE0C BE28 BE44 BE60 BE7C BE98 BEB4 BED0 BEEC BF08 BF24 BF40 BF5C BF78 BF94
      BFB0 BFCC BFE8 C004 C020 C03C C058 C074 C090 C0AC C0C8 C0E4 C100 C11C C138 C154 C170 C18C
      C1A8 C1C4 C1E0 C1FC C218 C234 C250 C26C C288 C2A4 C2C0 C2DC C2F8 C314 C330 C34C C368 C384
      C3A0 C3BC C3D8 C3F4 C410 C42C C448 C464 C480 C49C C4B8 C4D4 C4F0 C50C C528 C544 C560 C57C
      C598 C5B4 C5D0 C5EC C608 C624 C640 C65C C678 C694 C6B0 C6CC C6E8 C704 C720 C73C C758 C774
      C790 C7AC C7C8 C7E4 C800 C81C C838 C854 C870 C88C C8A8 C8C4 C8E0 C8FC C918 C934 C950 C96C
      C988 C9A4 C9C0 C9DC C9F8 CA14 CA30 CA4C CA68 CA84 CAA0 CABC CAD8 CAF4 CB10 CB2C CB48 CB64
      CB80 CB9C CBB8 CBD4 CBF0 CC0C CC28 CC44 CC60 CC7C CC98 CCB4 CCD0 CCEC CD08 CD24 CD40 CD5C
      CD78 CD94 CDB0 CDCC CDE8 CE04 CE20 CE3C CE58 CE74 CE90 CEAC CEC8 CEE4 CF00 CF1C CF38 CF54
      CF70 CF8C CFA8 CFC4 CFE0 CFFC D018 D034 D050 D06C D088 D0A4 D0C0 D0DC D0F8 D114 D130 D14C
      D168 D184 D1A0 D1BC D1D8 D1F4 D210 D22C D248 D264 D280 D29C D2B8 D2D4 D2F0 D30C D328 D344
      D360 D37C D398 D3B4 D3D0 D3EC D408 D424 D440 D45C D478 D494 D4B0 D4CC D4E8 D504 D520 D53C
      D558 D574 D590 D5AC D5C8 D5E4 D600 D61C D638 D654 D670 D68C D6A8 D6C4 D6E0 D6FC D718 D734
      D750 D76C D788",
     ""⟩,
   ⟨["lvt"], [], "AC00-D7A3", ""⟩]

/-- Signs that are counted as letters of a word. -/
def wordSigns : String :=
  " B8 2C2-2C5 2D2-2D7 2DE-2DF 2E5-2EB 2ED 2EF-2FF 55A-55C 55E 58A 5F3 70F A708-A716 A720-A721
   A789-A78A AB5B"

/-- The values for words. -/
def words : List Property :=
  [⟨["cr"], [], "D", ""⟩,
   ⟨["lf"], [], "A", ""⟩,
   ⟨["nl", "newline"], [], "B-C 85 2028-2029", ""⟩,
   ⟨["zwj"], [], "200D", ""⟩,
   ⟨["dq", "doublequote"], [], "22", ""⟩,
   ⟨["sq", "singlequote"], [], "27", ""⟩,
   ⟨["ri", "regionalindicator"], [], "1F1E6-1F1FF", ""⟩,
   ⟨["hl", "hebrewletter"], [],
     "5D0-5EA 5EF-5F2 FB1D FB1F-FB28 FB2A-FB36 FB38-FB3C FB3E FB40-FB41 FB43-FB44 FB46-FB4F",
     ""⟩,
   ⟨["ka", "katakana"], [],
     "3031-3035 309B-309C 30A0-30FA 30FC-30FF 31F0-31FF 32D0-32FE 3300-3357 FF66-FF9D 1AFF0-1AFF3
      1AFF5-1AFFB 1AFFD-1AFFE 1B000 1B120-1B122 1B155 1B164-1B167",
     ""⟩,
   ⟨["ml", "midletter"], [], "3A B7 387 55F 5F4 2027 FE13 FE55 FF1A", ""⟩,
   ⟨["mn", "midnum"], [], "2C 3B 37E 589 60C-60D 66C 7F8 2044 FE50 FE54 FF0C FF1B", ""⟩,
   ⟨["mb", "midnumlet"], [], "2E 2018-2019 2024 FE52 FF07 FF0E", ""⟩,
   ⟨["nu", "numeric"], [.nd], "600-605 66B 6DD 890-891 8E2 19DA 110BD 110CD", ""⟩,
   ⟨["ex", "extendnumlet"], [.pc], "202F", ""⟩,
   ⟨["wsegspace"], [.zs], "", "A0 2007 202F"⟩,
   { extending with names := ["extend"] },
   ⟨["fo", "format"], [.cf], "", "70F 200B"⟩,
   { Property.alphabetic with
       names := ["le", "aletter"]
       more := Property.alphabetic.more ++ wordSigns
       except :=
         "E01-EDF 1000-108E 1780-17DC 1950-19C9 1A20-1AA7 3006-303A 3041-309F 3400-9FFF A9E0-A9FE
          AA60-AADD F900-FAD9 11700-11746 17000-1B2FB 20000-323AF" }]

/-- The values for sentences. -/
def sentences : List Property :=
  [⟨["cr"], [], "D", ""⟩,
   ⟨["lf"], [], "A", ""⟩,
   ⟨["se", "sep"], [], "85 2028-2029", ""⟩,
   ⟨["at", "aterm"], [], "2E 2024 FE52 FF0E", ""⟩,
   { Property.sentenceTerminal with names := ["st", "sterm"] },
   ⟨["sc", "scontinue"], [],
     "2C-2D 3A-3B 37E 55D 60C-60D 7F8 1802 1808 2013-2014 3001 FE10-FE11 FE13-FE14 FE31-FE32
      FE50-FE51 FE54-FE55 FE58 FE63 FF0C-FF0D FF1A-FF1B FF64",
     ""⟩,
   { extending with names := ["ex", "extend"], more := Property.graphemeExtend.more ++ " 200D" },
   ⟨["nu", "numeric"], [.nd], "600-605 66B-66C 6DD 890-891 8E2 19DA 110BD 110CD", ""⟩,
   ⟨["fo", "format"], [.cf], "", ""⟩,
   { Property.whiteSpace with names := ["sp"] },
   { Property.lowercase with names := ["lo", "lower"], except := "10D0-10FA 10FD-10FF" },
   { Property.uppercase with
       names := ["up", "upper"], categories := [.lu, .lt], except := "1C90-1CBA 1CBD-1CBF" },
   { Property.alphabetic with
       names := ["le", "oletter"], more := Property.alphabetic.more ++ " 5F3" },
   ⟨["cl", "close"], [.ps, .pe, .pi, .pf],
     "22 27 275B-2760 2E00-2E01 2E06-2E08 2E0B 1F676-1F678",
     ""⟩]

end ChartParsing.Segmentation
