import RegEngine.Lib.Binary64
import RegEngine.Lib.Words

/-!
# Regional entity names

`app/localization/entity_alignment.py`, and `lookup_entity` of `app/agents/tools.py`. What compatibility
normalisation and lowering make of a text is a parameter; the quotient of two lengths is kept exact.
-/

namespace RegEngine.Localization

open Lib Lib.Python

inductive RegionalLanguage where
  | english
  | hindi
  | marathi
  | gujarati
  deriving DecidableEq

/-- The aliases of an entity in each regional language. -/
structure RegionalAliases where
  hindi : List String
  marathi : List String
  gujarati : List String

/-- `by_language.get(language.value, [])`. -/
def RegionalAliases.get (aliases : RegionalAliases) : RegionalLanguage → List String
  | .english => []
  | .hindi => aliases.hindi
  | .marathi => aliases.marathi
  | .gujarati => aliases.gujarati

def regionalEntityAliases : List (String × RegionalAliases) :=
  [("Stockbroker", ⟨["स्टॉक ब्रोकर", "शेयर दलाल", "शेयर ब्रोकर", "ब्रोकर"],
      ["स्टॉक ब्रोकर", "समभाग दलाल", "ब्रोकर"],
      ["સ્ટોક બ્રોકર", "શેર દલાલ", "બ્રોકર"]⟩),
    ("Depository Participant", ⟨["डिपॉजिटरी प्रतिभागी"],
      ["डिपॉझिटरी सहभागी"],
      ["ડિપોઝિટરી સહભાગી"]⟩),
    ("Asset Management Company", ⟨["परिसंपत्ति प्रबंधन कंपनी", "एसेट मैनेजमेंट कंपनी"],
      ["मालमत्ता व्यवस्थापन कंपनी"],
      ["એસેટ મેનેજમેન્ટ કંપની"]⟩),
    ("Mutual Fund Trustee", ⟨["म्यूचुअल फंड ट्रस्टी", "न्यासी"],
      ["म्युच्युअल फंड विश्वस्त"],
      ["મ્યુચ્યુઅલ ફંડ ટ્રસ્ટી"]⟩),
    ("Custodian", ⟨["अभिरक्षक", "कस्टोडियन"],
      ["अभिरक्षक", "कस्टोडियन"],
      ["કસ્ટોડિયન"]⟩),
    ("Clearing Corporation", ⟨["समाशोधन निगम", "क्लियरिंग कॉर्पोरेशन"],
      ["क्लिअरिंग कॉर्पोरेशन"],
      ["ક્લિયરિંગ કોર્પોરેશન"]⟩),
    ("Stock Exchange", ⟨["स्टॉक एक्सचेंज", "शेयर बाजार"],
      ["शेअर बाजार", "स्टॉक एक्स्चेंज"],
      ["શેર બજાર", "સ્ટોક એક્સચેન્જ"]⟩),
    ("Merchant Banker", ⟨["मर्चेंट बैंकर"],
      ["मर्चंट बँकर"],
      ["મર્ચન્ટ બેન્કર"]⟩),
    ("Credit Rating Agency", ⟨["क्रेडिट रेटिंग एजेंसी", "साख निर्धारण एजेंसी"],
      ["पत मानांकन संस्था", "क्रेडिट रेटिंग एजन्सी"],
      ["ક્રેડિટ રેટિંગ એજન્સી"]⟩),
    ("Investment Adviser", ⟨["निवेश सलाहकार"],
      ["गुंतवणूक सल्लागार"],
      ["રોકાણ સલાહકાર"]⟩),
    ("Portfolio Manager", ⟨["पोर्टफोलियो प्रबंधक"],
      ["पोर्टफोलिओ व्यवस्थापक"],
      ["પોર્ટફોલિયો મેનેજર"]⟩),
    ("Registrar and Transfer Agent", ⟨["रजिस्ट्रार एवं अंतरण अभिकर्ता", "रजिस्ट्रार एंड ट्रांसफर एजेंट"],
      ["रजिस्ट्रार आणि ट्रान्सफर एजंट"],
      ["રજિસ્ટ્રાર એન્ડ ટ્રાન્સફર એજન્ટ"]⟩),
    ("KYC Registration Agency", ⟨["केवाईसी पंजीकरण एजेंसी"],
      ["केवायसी नोंदणी संस्था"],
      ["કેવાયસી નોંધણી એજન્સી"]⟩),
    ("Research Analyst", ⟨["अनुसंधान विश्लेषक", "शोध विश्लेषक"],
      ["संशोधन विश्लेषक"],
      ["સંશોધન વિશ્લેષક"]⟩),
    ("Alternative Investment Fund", ⟨["वैकल्पिक निवेश कोष", "वैकल्पिक निवेश फंड"],
      ["पर्यायी गुंतवणूक निधी"],
      ["વૈકલ્પિક રોકાણ ફંડ"]⟩),
    ("Foreign Portfolio Investor", ⟨["विदेशी पोर्टफोलियो निवेशक"],
      ["परदेशी पोर्टफोलिओ गुंतवणूकदार"],
      ["વિદેશી પોર્ટફોલિયો રોકાણકાર"]⟩)]

def sebiEntityTaxonomy : List (String × List String) :=
  [("Stockbroker", ["stock broker", "stockbroker", "trading member", "broker"]),
    ("Depository Participant", ["depository participant", "dp"]),
    ("Asset Management Company", ["amc", "asset management company", "mutual fund manager"]),
    ("Mutual Fund Trustee", ["trustee", "mutual fund trustee"]),
    ("Custodian", ["custodian"]),
    ("Clearing Corporation", ["clearing corporation", "clearing house", "ccl"]),
    ("Stock Exchange", ["stock exchange", "recognized stock exchange", "exchange"]),
    ("Merchant Banker", ["merchant banker", "lead manager"]),
    ("Credit Rating Agency", ["credit rating agency", "cra"]),
    ("Investment Adviser", ["investment adviser", "ia"]),
    ("Portfolio Manager", ["portfolio manager", "pms"]),
    ("Registrar and Transfer Agent", ["registrar and transfer agent", "rta"]),
    ("KYC Registration Agency", ["kyc registration agency", "kra"]),
    ("Research Analyst", ["research analyst"]),
    ("Alternative Investment Fund", ["alternative investment fund", "aif"]),
    ("Foreign Portfolio Investor", ["foreign portfolio investor", "fpi"])]

structure EntityLookupOutput where
  inputPhrase : String
  normalizedEntity : Option String
  confidence : Rat
  resolved : Bool

structure EntityAlignmentResult where
  inputPhrase : String
  language : RegionalLanguage
  normalizedEntity : Option String
  confidence : Rat
  resolved : Bool
  method : String := "unresolved"
  translatedPhrase : Option String := none

section

-- What `unicodedata.normalize("NFKC", text).lower()` comes to.
variable (folded : String → String)

/-- `_canon`. -/
def canon (text : String) : String :=
  " ".intercalate ((Words.words (fun c => !isSpace c) (folded text).toList).map String.ofList)

/-- Whether one of two texts is a part of the other. -/
def overlaps (aliasCanon phraseCanon : String) : Bool :=
  contains phraseCanon aliasCanon || contains aliasCanon phraseCanon

/-- The length of an alias for that of the phrase. -/
def score (aliasCanon phraseCanon : String) : Rat := aliasCanon.length / max phraseCanon.length 1

/-- What a search over aliases ends with. -/
inductive Found where
  | exact (entity : String)
  | best (entity : Option String) (score : Rat)

/-- The loop over the aliases, each with its entity, given the best entity and score so far. -/
def searchAliases (phraseCanon : String) : Option String → Rat → List (String × String) → Found
  | bestEntity, bestScore, [] => .best bestEntity bestScore
  | bestEntity, bestScore, (canonical, name) :: rest =>
    let aliasCanon := canon folded name
    if aliasCanon = phraseCanon then .exact canonical
    else if overlaps aliasCanon phraseCanon ∧ bestScore < score aliasCanon phraseCanon then
      searchAliases phraseCanon (some canonical) (score aliasCanon phraseCanon) rest
    else searchAliases phraseCanon bestEntity bestScore rest

/-- The aliases of a language, in the order of the glossary. -/
def aliasesOf (language : RegionalLanguage) : List (String × String) :=
  regionalEntityAliases.flatMap fun e => (e.2.get language).map fun name => (e.1, name)

/-- `_direct_glossary_lookup`. -/
def directGlossaryLookup (phrase : String) (language : RegionalLanguage) : Option String × Rat :=
  match searchAliases folded (canon folded phrase) none 0 (aliasesOf language) with
  | .exact canonical => (some canonical, 1)
  | .best bestEntity bestScore => if 1 / 2 ≤ bestScore then (bestEntity, bestScore) else (none, 0)

def lookupEntity (entityPhrase : String) : EntityLookupOutput :=
  let entries := sebiEntityTaxonomy.flatMap fun e => (e.2 ++ [e.1]).map fun name => (e.1, name)
  match searchAliases folded (canon folded entityPhrase) none 0 entries with
  | .exact canonical => ⟨entityPhrase, some canonical, 1, true⟩
  | .best bestEntity bestScore =>
    let resolved := bestEntity.isSome && decide (1 / 2 ≤ bestScore)
    ⟨entityPhrase, if resolved then bestEntity else none, (Binary64.round 4 (Binary64.ofRat bestScore)).toRat, resolved⟩

def alignRegionalEntity (phrase : String) (language : RegionalLanguage) (translateFn : Option (String → String)) :
    EntityAlignmentResult :=
  let (canonical, confidence) := directGlossaryLookup folded phrase language
  if canonical.isSome then
    { inputPhrase := phrase
      language := language
      normalizedEntity := canonical
      confidence := confidence
      resolved := true
      method := "direct_glossary" }
  else
    match translateFn with
    | none =>
      { inputPhrase := phrase
        language := language
        normalizedEntity := none
        confidence := 0
        resolved := false }
    | some translate =>
      let translatedPhrase := translate phrase
      let fallback := lookupEntity folded translatedPhrase
      { inputPhrase := phrase
        language := language
        normalizedEntity := fallback.normalizedEntity
        confidence := fallback.confidence
        resolved := fallback.resolved
        method := if fallback.resolved then "translated_fallback" else "unresolved"
        translatedPhrase := some translatedPhrase }

end

end RegEngine.Localization
