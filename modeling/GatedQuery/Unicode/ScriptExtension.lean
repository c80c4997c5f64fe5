import GatedQuery.Unicode.Script

/-! Some characters are used by a few scripts only, although they belong to none or to one of them. A
character that is known to be used by some scripts counts for those and no longer as common or
inherited. -/

namespace GatedQuery.Unicode

/-- The characters that scripts use beside their own, by the full names of the scripts. -/
def sharedCharacters : List (String × CharSet) :=
  [
    ("Adlam", .ofText "61F 640 204F 2E41"),
    ("Arabic", .ofText "60C 61B 61F 640 64B-655 670 204F 2E41 FD3E-FD3F 102E0-102FB"),
    ("Armenian", .ofText "308"),
    ("Avestan", .ofText "B7 2E30-2E31"),
    ("Bengali", .ofText "
      2BC 951-952 964-965 1CD0 1CD2 1CD5-1CD6 1CD8 1CE1 1CEA 1CED 1CF2 1CF5-1CF7 A8F1"),
    ("Bopomofo", .ofText "
      2C7 2C9-2CB 2D9 3001-3003 3008-3011 3013-301F 302A-302D 3030 3037 30FB FE45-FE46 FF61-FF65"),
    ("Buginese", .ofText "A9CF"),
    ("Buhid", .ofText "1735-1736"),
    ("Carian", .ofText "B7 205A 205D 2E31"),
    ("Caucasian_Albanian", .ofText "304 331 35E"),
    ("Chakma", .ofText "9E6-9EF 1040-1049"),
    ("Cherokee", .ofText "300-302 304 30B-30C 323-324 330-331"),
    ("Coptic", .ofText "B7 300 304-305 307 374-375 2E17 102E0-102FB"),
    ("Cypriot", .ofText "10100-10102 10107-10133 10137-1013F"),
    ("Cypro_Minoan", .ofText "10100-10101"),
    ("Cyrillic", .ofText "2BC 300-302 304-308/2 30B 311 485-486 1DF8 2E43"),
    ("Devanagari", .ofText "2BC 951-952 964-965 1CD0-1CF6 1CF8-1CF9 20F0 A830-A839"),
    ("Dogra", .ofText "964-96F A830-A839"),
    ("Duployan", .ofText "B7 307-308 30A 323-324 2E3C 1BCA0-1BCA3"),
    ("Elbasan", .ofText "B7 305"),
    ("Ethiopic", .ofText "30E"),
    ("Garay", .ofText "60C 61B 61F"),
    ("Georgian", .ofText "B7 589 10FB 205A 2E31"),
    ("Glagolitic", .ofText "B7 303 305 484 487 589 10FB 205A 2E43 A66F"),
    ("Gothic", .ofText "B7 304-305 308 331"),
    ("Grantha", .ofText "
      951-952 964-965 BE6-BF3 1CD0 1CD2-1CD3 1CF2-1CF4 1CF8-1CF9 20F0 1133B 11FD0-11FD1 11FD3"),
    ("Greek", .ofText "B7 300-301 304-308/2 313 342 345 374 1DC0-1DC1 205D"),
    ("Gujarati", .ofText "951-952 964-965 A830-A839"),
    ("Gunjala_Gondi", .ofText "B7 964-965"),
    ("Gurmukhi", .ofText "951-952 964-965 A830-A839"),
    ("Gurung_Khema", .ofText "965"),
    ("Han", .ofText "
      B7 2FF0-2FFF 3001-3003 3006 3008-3011 3013-301F 302A-302D 3030 3037 303C-303F 30FB 3190-319F
      31C0-31E5 31EF 3220-3247 3280-32B0 32C0-32CB 32FF 3358-3370 337B-337F 33E0-33FE A700-A707
      FE45-FE46 FF61-FF65 1D360-1D371 1F250-1F251"),
    ("Hangul", .ofText "3001-3003 3008-3011 3013-301F 3030 3037 30FB FE45-FE46 FF61-FF65"),
    ("Hanifi_Rohingya", .ofText "60C 61B 61F 640 6D4"),
    ("Hanunoo", .ofText "1735-1736"),
    ("Hebrew", .ofText "307-308"),
    ("Hiragana", .ofText "
      3001-3003 3008-3011 3013-301F 3030-3035 3037 303C-303D 3099-309C 30A0 30FB-30FC FE45-FE46
      FF61-FF65 FF70 FF9E-FF9F"),
    ("Javanese", .ofText "A9CF"),
    ("Kaithi", .ofText "966-96F 2E31 A830-A839"),
    ("Kannada", .ofText "951-952 964-965 1CD0 1CD2-1CD3 1CDA 1CF2 1CF4 A830-A835"),
    ("Katakana", .ofText "
      305 323 3001-3003 3008-3011 3013-301F 3030-3035 3037 303C-303D 3099-309C 30A0 30FB-30FC
      FE45-FE46 FF61-FF65 FF70 FF9E-FF9F"),
    ("Kayah_Li", .ofText "A92E"),
    ("Khojki", .ofText "AE6-AEF A830-A839"),
    ("Khudawadi", .ofText "964-965 A830-A839"),
    ("Latin", .ofText "
      B7 2BC 2C7 2C9-2CB 2CD 2D7 2D9 300-30E 310-311 313 320 323-325 32D-32E 330-331 358 35E
      363-36F 485-486 951-952 10FB 1DF8 202F 20F0 2E17 A700-A707 A92E"),
    ("Limbu", .ofText "965"),
    ("Linear_A", .ofText "10107-10133"),
    ("Linear_B", .ofText "10100-10102 10107-10133 10137-1013F"),
    ("Lisu", .ofText "2BC 2CD 300A-300B"),
    ("Lycian", .ofText "205A"),
    ("Lydian", .ofText "B7 2E31"),
    ("Mahajani", .ofText "B7 964-96F A830-A839"),
    ("Malayalam", .ofText "951-952 964-965 1CDA 1CF2 A830-A832"),
    ("Mandaic", .ofText "640"),
    ("Manichaean", .ofText "640"),
    ("Masaram_Gondi", .ofText "964-965"),
    ("Meroitic_Hieroglyphs", .ofText "205D"),
    ("Modi", .ofText "A830-A839"),
    ("Mongolian", .ofText "1802-1803 1805 202F 3001-3002 3008-300B"),
    ("Multani", .ofText "A66-A6F"),
    ("Myanmar", .ofText "A92E"),
    ("Nandinagari", .ofText "951 964-965 CE6-CEF 1CE9 1CF2 1CFA A830-A835"),
    ("Newa", .ofText "951-952 1CD5 1CD7-1CD8 1CE2 1CE9-1CED/2"),
    ("Nko", .ofText "60C 61B 61F FD3E-FD3F"),
    ("Ol_Onal", .ofText "964-965"),
    ("Old_Hungarian", .ofText "205A 205D 2E31 2E41"),
    ("Old_Permic", .ofText "B7 300 306-308 313 483"),
    ("Old_Turkic", .ofText "205A 2E30"),
    ("Old_Uyghur", .ofText "640 10AF2"),
    ("Oriya", .ofText "951-952 964-965 1CDA 1CF2"),
    ("Osage", .ofText "301 304 30B 358"),
    ("Phags_Pa", .ofText "1802-1803 1805 202F 3002"),
    ("Psalter_Pahlavi", .ofText "640"),
    ("Runic", .ofText "16EB-16ED"),
    ("Samaritan", .ofText "2E31"),
    ("Sharada", .ofText "951 1CD7 1CD9 1CDC-1CDD 1CE0 1CEA 1CED A830-A835 A838"),
    ("Shavian", .ofText "B7"),
    ("Sinhala", .ofText "964-965 1CF2"),
    ("Sogdian", .ofText "640"),
    ("Sunuwar", .ofText "300-301 303 30D 310 32D 331"),
    ("Syloti_Nagri", .ofText "964-965 9E6-9EF"),
    ("Syriac", .ofText "
      303-304 307-308 30A 320 323-325 32D-32E 330-331 60C 61B-61C 61F 640 64B-655 670 1DF8 1DFA"),
    ("Tagalog", .ofText "1735-1736"),
    ("Tagbanwa", .ofText "1735-1736"),
    ("Tai_Le", .ofText "300-301 307-308 30C 1040-1049"),
    ("Takri", .ofText "964-965 A830-A839"),
    ("Tamil", .ofText "951-952 964-965 1CDA A8F3 11301 11303 1133B-1133C"),
    ("Tangut", .ofText "2FF0-2FFF 31EF"),
    ("Telugu", .ofText "951-952 964-965 1CD5-1CD6 1CD8 1CDA 1CF2"),
    ("Thaana", .ofText "60C 61B-61C 61F 660-669 FDF2 FDFD"),
    ("Thai", .ofText "2BC 2D7 303 331"),
    ("Tibetan", .ofText "3008-300B"),
    ("Tifinagh", .ofText "302 304 306-309 323"),
    ("Tirhuta", .ofText "951-952 964-965 1CD5 1CE2 1CF2 A830-A839"),
    ("Todhri", .ofText "301 304 307 311 313 35E"),
    ("Toto", .ofText "2BC"),
    ("Tulu_Tigalari", .ofText "CE6-CEF 1CF2 1CF4 A830-A835 A8F1"),
    ("Yezidi", .ofText "60C 61B 61F 660-669"),
    ("Yi", .ofText "3001-3002 3008-3011 3014-301B 30FB FF61-FF65")
  ]

/-- All characters that some script uses beside its own. -/
def allShared : CharSet :=
  .unionAll (sharedCharacters.map Prod.snd)

def extended (s : NamedSet) : NamedSet :=
  match s.names.head?.bind fun n => sharedCharacters.lookup n with
  | some more => { s with members := s.members.union more }
  | none =>
    if s.isNamed "Common" || s.isNamed "Inherited" then
      { s with members := s.members.diff allShared }
    else s

def scriptExtensions : List NamedSet :=
  scripts.map extended

end GatedQuery.Unicode
