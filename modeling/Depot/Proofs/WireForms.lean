import Depot.Proofs.JsonReading
import Depot.Proofs.TimestampText
import Depot.Wire

/-! # Wire forms are read back as they are written

Names, queries, tag requests and artifacts are written as objects whose members their decoders find
by key. What a decoder accepts may be written differently, but the name in it has always passed
the check: the three components that stand in the text are those of the name, and none is empty.
-/

namespace Depot

open Json (Token Decoder DecodeError)
open Json.Token (Writes objectOf arrayOf writes_object writes_string)
open Json.Decoder (Reads Fills Forward reads_member reads_object forward_string forward_word
  ofBytes_of_writes)

def textToken (text : String) : List Token := [.string (some text)]

theorem reads_text {ε σ : Type} (key : String) (get : σ → Option String) (set : σ → String → σ)
    (r : σ) (text : String) :
    Reads ((Decoder.Field.text key get set : Decoder.Field ε σ).read r) (textToken text)
      (set r text) :=
  fun _ => rfl

theorem spares_text {ε σ β : Type} {part : σ → Option β} {value : Decoder ε β} (key : String)
    (get : σ → Option String) (set : σ → String → σ) (same : ∀ r text, part (set r text) = part r) :
    (Decoder.Field.text key get set : Decoder.Field ε σ).Treats part value :=
  .spares Decoder.string forward_string set (fun _ _ => rfl) same

theorem forward_text {ε σ : Type} (key : String) (get : σ → Option String) (set : σ → String → σ)
    (r : σ) : Forward ((Decoder.Field.text key get set : Decoder.Field ε σ).read r) :=
  forward_string.map (set r)

namespace QualifiedName

def parts (n : QualifiedName) : Parts := ⟨n.source, n.author, n.name⟩

def Parts.Full (p : Parts) : Prop := p.source ≠ "" ∧ p.author ≠ "" ∧ p.name ≠ ""

theorem full (n : QualifiedName) : n.parts.Full := ⟨n.source_ne, n.author_ne, n.name_ne⟩

def tokens (n : QualifiedName) : List Token :=
  objectOf [("source", textToken n.source), ("author", textToken n.author),
    ("name", textToken n.name)]

theorem writes_toJson (n : QualifiedName) : Writes n.toJson n.tokens :=
  writes_object [("source", Json.Writer.string n.source, textToken n.source),
    ("author", Json.Writer.string n.author, textToken n.author),
    ("name", Json.Writer.string n.name, textToken n.name)]
    (by simp [textToken, writes_string])

theorem reads_parts (n : QualifiedName) : Reads Parts.decoder n.tokens n.parts :=
  reads_object (.cons (reads_member rfl rfl (reads_text _ _ _ _ _)) <|
    .cons (reads_member rfl rfl (reads_text _ _ _ _ _)) <|
    .cons (reads_member rfl rfl (reads_text _ _ _ _ _)) .nil) rfl

/-- Checking the parts of a name gives the name, and a name is only given for its parts. -/
theorem check_eq_ok_iff (p : Parts) (n : QualifiedName) : p.check = .ok n ↔ p = n.parts := by
  have passes : p.check = .ok n ↔ ofComponents p.source p.author p.name = .ok n := by
    unfold Parts.check
    cases ofComponents p.source p.author p.name with
    | error component => exact ⟨nofun, nofun⟩
    | ok made => exact ⟨fun same => by cases same; rfl, fun same => by cases same; rfl⟩
  rw [passes, ofComponents_eq_ok]
  obtain ⟨source, author, name⟩ := p
  simp [parts, eq_comm]

theorem reads_tokens (n : QualifiedName) : Reads decoder n.tokens n :=
  Json.Decoder.reads_checked n.reads_parts ((check_eq_ok_iff _ _).2 rfl)

theorem decoder_eq_ok_iff {tokens rest : List Token} {n : QualifiedName} :
    decoder tokens = .ok (n, rest) ↔ Parts.decoder tokens = .ok (n.parts, rest) := by
  unfold decoder
  rw [Json.Decoder.checked_eq_ok_iff]
  constructor
  · rintro ⟨p, read, passes⟩
    rw [read, (check_eq_ok_iff p n).1 passes]
  · intro read
    exact ⟨n.parts, read, (check_eq_ok_iff _ _).2 rfl⟩

theorem forward_decoder : Forward decoder := by
  refine Forward.checked (Forward.record ?_ 3 {} Parts.Draft.finish) Parts.check
  intro field mem r
  simp only [List.mem_cons, List.not_mem_nil, or_false] at mem
  rcases mem with rfl | rfl | rfl
  · exact forward_text ..
  · exact forward_text ..
  · exact forward_text ..

theorem reads_field {σ : Type} (get : σ → Option QualifiedName) (set : σ → QualifiedName → σ) (r : σ)
    (n : QualifiedName) : Reads ((field get set).read r) n.tokens (set r n) :=
  n.reads_tokens.map (set r)

theorem treats_field {σ : Type} {part : σ → Option QualifiedName}
    (get : σ → Option QualifiedName) (set : σ → QualifiedName → σ)
    (isSet : ∀ r n, part (set r n) = some n) : (field get set).Treats part decoder :=
  .sets set (fun _ _ => rfl) isSet

/-- A value in the text has the parts of the name. -/
def StandsIn (n : QualifiedName) (text : List UInt8) : Prop :=
  ∃ here after, here <:+ Token.ofBytes text ∧ Parts.decoder here = .ok (n.parts, after)

theorem ofBytes_of_parts {text : List UInt8} {p : Parts}
    (read : Decoder.ofBytes Parts.decoder text = .ok p) :
    Decoder.ofBytes decoder text = p.check := by
  have read := Json.Decoder.ofBytes_eq_ok_iff.1 read
  simp only [Decoder.ofBytes, decoder, Decoder.checked, read]
  cases p.check <;> rfl

theorem standsIn_self {text : List UInt8} {n : QualifiedName}
    (read : Decoder.ofBytes decoder text = .ok n) : n.StandsIn text :=
  ⟨_, _, List.suffix_refl _, decoder_eq_ok_iff.1 (Json.Decoder.ofBytes_eq_ok_iff.1 read)⟩

/-- The name that a record holds stands in its text, if only its name field sets it. -/
theorem standsIn_record {σ α : Type} {part : σ → Option QualifiedName}
    {fields : List (Decoder.Field NameComponent σ)} {required : Nat} {start : σ}
    {finish : σ → Except (DecodeError NameComponent) α} {text : List UInt8} {a : α}
    {n : QualifiedName}
    (read : Decoder.ofBytes (Decoder.record fields required start finish) text = .ok a)
    (unset : part start = none) (named : ∀ r, finish r = .ok a → part r = some n)
    (each : ∀ field ∈ fields, field.Treats part decoder) : n.StandsIn text := by
  have read := Json.Decoder.ofBytes_eq_ok_iff.1 read
  obtain ⟨last, finishes, origin⟩ :=
    Json.Decoder.record_part part forward_decoder read unset each
  obtain ⟨here, after, behind, read⟩ := origin n (named last finishes)
  exact ⟨here, after, behind, decoder_eq_ok_iff.1 read⟩

end QualifiedName

namespace ArtifactQuery

def filterTokens : Option String → List Token
  | none => [.null]
  | some text => textToken text

theorem writes_filter (filter : Option String) :
    Writes (Json.Writer.optional (filter.map Json.Writer.string)) (filterTokens filter) := by
  cases filter with
  | none => exact Token.writes_null
  | some text => exact writes_string text

theorem reads_filterField {ε : Type} (key : String) (get : Draft → Option (Option String))
    (set : Draft → Option String → Draft) (d : Draft) (filter : Option String) :
    Reads ((filterField key get set : Decoder.Field ε Draft).read d) (filterTokens filter)
      (set d filter) := by
  cases filter <;> exact fun _ => rfl

def tokens (q : ArtifactQuery) : List Token :=
  objectOf [("source", filterTokens q.source), ("author", filterTokens q.author),
    ("name", filterTokens q.name)]

theorem writes_toJson (q : ArtifactQuery) : Writes q.toJson q.tokens :=
  writes_object [("source", Json.Writer.optional (q.source.map Json.Writer.string),
      filterTokens q.source),
    ("author", Json.Writer.optional (q.author.map Json.Writer.string), filterTokens q.author),
    ("name", Json.Writer.optional (q.name.map Json.Writer.string), filterTokens q.name)]
    (by simp [writes_filter])

theorem reads_tokens {ε : Type} (q : ArtifactQuery) :
    Reads (decoder : Decoder ε ArtifactQuery) q.tokens q :=
  reads_object (.cons (reads_member rfl rfl (reads_filterField _ _ _ _ _)) <|
    .cons (reads_member rfl rfl (reads_filterField _ _ _ _ _)) <|
    .cons (reads_member rfl rfl (reads_filterField _ _ _ _ _)) .nil) rfl

end ArtifactQuery

namespace TagRequest

def tokens (tagKey : String) (r : TagRequest) : List Token :=
  objectOf [("fqn", r.name.tokens), ("versionHash", textToken r.versionHash),
    (tagKey, textToken r.tag)]

theorem writes_toJson (r : TagRequest) : Writes r.toJson (r.tokens "tag") :=
  writes_object [("fqn", r.name.toJson, r.name.tokens),
    ("versionHash", Json.Writer.string r.versionHash, textToken r.versionHash),
    ("tag", Json.Writer.string r.tag, textToken r.tag)]
    (by simp [textToken, writes_string, r.name.writes_toJson])

theorem reads_tokens (r : TagRequest) : Reads (decoder "tag") (r.tokens "tag") r :=
  reads_object (.cons (reads_member rfl rfl (QualifiedName.reads_field _ _ _ _)) <|
    .cons (reads_member rfl rfl (reads_text _ _ _ _ _)) <|
    .cons (reads_member rfl rfl (reads_text _ _ _ _ _)) .nil) rfl

theorem Draft.name_of_finish {d : Draft} {r : TagRequest} (finishes : d.finish = .ok r) :
    d.name = some r.name := by
  unfold finish at finishes
  split at finishes
  case h_1 name _ _ => cases finishes; exact name
  case h_2 => cases finishes

theorem name_standsIn {tagKey : String} {text : List UInt8} {r : TagRequest}
    (read : Decoder.ofBytes (decoder tagKey) text = .ok r) : r.name.StandsIn text :=
  QualifiedName.standsIn_record read rfl (fun _ => Draft.name_of_finish) <|
    List.forall_mem_cons.2 ⟨QualifiedName.treats_field _ _ fun _ _ => rfl,
    List.forall_mem_cons.2 ⟨spares_text _ _ _ fun _ _ => rfl,
    List.forall_mem_cons.2 ⟨spares_text _ _ _ fun _ _ => rfl, List.forall_mem_nil _⟩⟩⟩

end TagRequest

namespace Artifact

def tokens (a : Artifact) : List Token :=
  objectOf [("fqn", a.name.tokens), ("versionHash", textToken a.versionHash),
    ("tags", arrayOf (a.tags.map textToken)), ("pulls", [.number (Json.Number.ofNat a.pulls)]),
    ("createdAt", textToken a.created.text)]

theorem writes_toJson (a : Artifact) : Writes a.toJson a.tokens :=
  writes_object [("fqn", a.name.toJson, a.name.tokens),
    ("versionHash", Json.Writer.string a.versionHash, textToken a.versionHash),
    ("tags", Json.Writer.array (a.tags.map Json.Writer.string), arrayOf (a.tags.map textToken)),
    ("pulls", Json.Writer.nat a.pulls, [.number (Json.Number.ofNat a.pulls)]),
    ("createdAt", Json.Writer.string a.created.text, textToken a.created.text)]
    (by
      have tags := Token.writes_array a.tags fun tag _ => writes_string tag
      simp [textToken, writes_string, a.name.writes_toJson, Token.writes_nat]
      exact tags)

theorem reads_tokens {a : Artifact} (pulls : a.pulls < Decoder.wordBound)
    (common : a.created.Common) : Reads decoder a.tokens a := by
  have created : Reads (timestamp : Decoder NameComponent Timestamp) (textToken a.created.text)
      a.created :=
    Json.Decoder.reads_checked (Json.Decoder.reads_string _)
      (by rw [Timestamp.parse?_text common])
  have tags (d : Draft) := (Json.Decoder.reads_strings (ε := NameComponent) a.tags).map
    fun tags => { d with tags := some tags }
  have pulls (d : Draft) := (Json.Decoder.reads_word (ε := NameComponent) pulls).map
    fun pulls => { d with pulls := some pulls }
  have created (d : Draft) := created.map fun created => { d with created := some created }
  exact reads_object (.cons (reads_member rfl rfl (QualifiedName.reads_field _ _ _ _)) <|
    .cons (reads_member rfl rfl (reads_text _ _ _ _ _)) <|
    .cons (reads_member rfl rfl (tags _)) <| .cons (reads_member rfl rfl (pulls _)) <|
    .cons (reads_member rfl rfl (created _)) .nil) rfl

theorem Draft.name_of_finish {d : Draft} {a : Artifact} (finishes : d.finish = .ok a) :
    d.name = some a.name := by
  unfold finish at finishes
  split at finishes
  case h_1 name _ _ _ _ => cases finishes; exact name
  case h_2 => cases finishes

theorem name_standsIn {text : List UInt8} {a : Artifact}
    (read : Decoder.ofBytes decoder text = .ok a) : a.name.StandsIn text :=
  QualifiedName.standsIn_record read rfl (fun _ => Draft.name_of_finish) <|
    List.forall_mem_cons.2 ⟨QualifiedName.treats_field _ _ fun _ _ => rfl,
    List.forall_mem_cons.2 ⟨spares_text _ _ _ fun _ _ => rfl,
    List.forall_mem_cons.2 ⟨.spares (Decoder.list Decoder.string) forward_string.list
      (fun d tags => { d with tags := some tags }) (fun _ _ => rfl) fun _ _ => rfl,
    List.forall_mem_cons.2 ⟨.spares Decoder.word forward_word
      (fun d pulls => { d with pulls := some pulls }) (fun _ _ => rfl) fun _ _ => rfl,
    List.forall_mem_cons.2 ⟨.spares timestamp (forward_string.checked _)
      (fun d created => { d with created := some created }) (fun _ _ => rfl) fun _ _ => rfl,
    List.forall_mem_nil _⟩⟩⟩⟩⟩

end Artifact

/-- Every wire form reads back what it writes, and no text at all gets a name past its check: what
reads as three components is a name exactly if the check passes them, and the name of whatever is
read stands in the text with three components, none of them empty. -/
theorem wire_round_trip :
    (∀ n : QualifiedName, Decoder.ofBytes QualifiedName.decoder n.toJson = .ok n) ∧
    (∀ q : ArtifactQuery,
      (Decoder.ofBytes ArtifactQuery.decoder q.toJson : Except (DecodeError NameComponent) _) =
        .ok q) ∧
    (∀ r : TagRequest, Decoder.ofBytes (TagRequest.decoder "tag") r.toJson = .ok r) ∧
    (∀ a : Artifact, a.pulls < Decoder.wordBound → a.created.Common →
      Decoder.ofBytes Artifact.decoder a.toJson = .ok a) ∧
    (∀ text p, Decoder.ofBytes QualifiedName.Parts.decoder text = .ok p →
      Decoder.ofBytes QualifiedName.decoder text = p.check) ∧
    (∀ text n, Decoder.ofBytes QualifiedName.decoder text = .ok n →
      n.StandsIn text ∧ n.parts.Full) ∧
    (∀ tagKey text r, Decoder.ofBytes (TagRequest.decoder tagKey) text = .ok r →
      r.name.StandsIn text ∧ r.name.parts.Full) ∧
    (∀ text a, Decoder.ofBytes Artifact.decoder text = .ok a →
      a.name.StandsIn text ∧ a.name.parts.Full) := by
  refine ⟨fun n => ?_, fun q => ?_, fun r => ?_, fun a pulls common => ?_, ?_, ?_, ?_, ?_⟩
  · exact ofBytes_of_writes n.writes_toJson n.reads_tokens
  · exact ofBytes_of_writes q.writes_toJson q.reads_tokens
  · exact ofBytes_of_writes r.writes_toJson r.reads_tokens
  · exact ofBytes_of_writes a.writes_toJson (Artifact.reads_tokens pulls common)
  · exact fun text p read => QualifiedName.ofBytes_of_parts read
  · exact fun text n read => ⟨QualifiedName.standsIn_self read, n.full⟩
  · exact fun tagKey text r read => ⟨TagRequest.name_standsIn read, r.name.full⟩
  · exact fun text a read => ⟨Artifact.name_standsIn read, a.name.full⟩

/-- A tool with as many pulls as can be counted, created in the first nanosecond of the year 0. -/
def ancientTool : Artifact where
  name := ⟨"a", "\u0001\"\\", "é", by decide, by decide, by decide⟩
  versionHash := ""
  tags := ["", "tag\n", ""]
  pulls := Decoder.wordBound - 1
  created := ⟨-62167219200, 1⟩

theorem ancientTool_round_trip : ancientTool.pulls < Decoder.wordBound ∧
    ancientTool.created.Common ∧
    Decoder.ofBytes Artifact.decoder ancientTool.toJson = .ok ancientTool := by
  have pulls : ancientTool.pulls < Decoder.wordBound := by decide
  have common : ancientTool.created.Common := ⟨by decide, by decide, by decide⟩
  exact ⟨pulls, common, wire_round_trip.2.2.2.1 ancientTool pulls common⟩

end Depot
