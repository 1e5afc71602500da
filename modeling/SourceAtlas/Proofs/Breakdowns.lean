import SourceAtlas.Proofs.Json.Phrases
import SourceAtlas.Proofs.Json.Strings
import SourceAtlas.Proofs.Protocol

/-!
# Breakdowns of the work on a file

What a model writes is checked and at worst reported, so that no answer of it should break the work.
One kind of answer does: an object with a whole number of more digits than are read.

* `Text.HoldsDigits`: so many digits stand in a text, one after the other;
* `Summary.ofText_broken`: the texts that break the work;
* `Refiner.Foreseen`, `Refiner.foreseen_work`: what a stage may come to;
* `Refiner.continueFrom_broken`: the work breaks down at an answer alone;
* `Refiner.longNumber`, `Refiner.continueFrom_saying`: answers that break it;
* **`Refiner.summarize_breakdowns`**: exactly which answers break it;
* `Refiner.summarize_breakdowns_twoAnswers`: one of them, and another answer.
-/

namespace SourceAtlas

/-! ## Runs of digits -/

/-- So many digits stand in the text, one after the other. -/
def Text.HoldsDigits (t : Text) (n : Nat) : Prop :=
  ∃ ds : Text, ds <:+: t ∧ ds.length = n ∧ ∀ d ∈ ds, d.isDigit = true

theorem Text.HoldsDigits.mono {t u : Text} {n : Nat} (h : t.HoldsDigits n) (hu : t <:+: u) :
    u.HoldsDigits n := by
  obtain ⟨ds, hds, hn, hd⟩ := h
  exact ⟨ds, hds.trans hu, hn, hd⟩

/-- The digits of a whole number at the start of a text. -/
theorem Json.IntegerAt.holdsDigits {t : Text} {ds : List Char} (h : IntegerAt t ds) :
    t.HoldsDigits ds.length := by
  obtain ⟨negative, rest, rfl, hw, -⟩ := h
  refine ⟨ds.map Point.ofChar, ⟨sign negative, rest, List.append_assoc ..⟩, List.length_map _,
    List.forall_mem_map.2 fun d hd => ?_⟩
  rw [Point.isDigit_ofChar, hw.isDigit d hd]

namespace Summary

/-- The fault of a text without a summary: it is reported, or so many digits stand in the text. -/
theorem objectFrom_tooManyDigits {whole t : Text} {first : Option Json.Fault} {n : Nat}
    (h : objectFrom whole first t = .error (.tooManyDigits n)) :
    Json.maxDigits < n ∧ t.HoldsDigits n := by
  induction t generalizing first with
  | nil =>
    unfold objectFrom at h
    split at h <;> cases h
  | cons c t ih =>
    have hmono : t <:+: c :: t := (List.suffix_cons c t).isInfix
    rw [objectFrom] at h
    split at h
    · have hcomes := Json.comes_readFront (c :: t)
      split at h
      · cases h
      · rename_i count hr
        rw [hr] at hcomes
        cases h
        cases hcomes with
        | tooManyDigits hl hi hn => exact ⟨hn, hi.holdsDigits.mono hl.isSuffix.isInfix⟩
      · obtain ⟨hn, hd⟩ := ih h
        exact ⟨hn, hd.mono hmono⟩
    · obtain ⟨hn, hd⟩ := ih h
      exact ⟨hn, hd.mono hmono⟩

/-- **A text breaks the work in one way**: the number that it should hold has too many digits. -/
theorem ofText_broken {t : Text} {fault : Fault} {why : Breakdown} (h : ofText t = .error fault)
    (hb : fault.failure = .broken why) :
    ∃ n, Json.maxDigits < n ∧ t.HoldsDigits n ∧ why = ⟨.value, Json.tooManyDigitsMessage n⟩ := by
  cases fault with
  | noObject => cases hb
  | malformed text fault => cases hb
  | misfits ms => cases hb
  | tooManyDigits n =>
    cases hb
    unfold ofText firstObject at h
    cases ho : objectFrom t none t with
    | ok v =>
      rw [ho] at h
      cases hc : check v with
      | fits s | misfits ms =>
        simp only [bind, Except.bind, hc] at h
        cases h
    | error e =>
      rw [ho] at h
      cases h
      obtain ⟨hn, hd⟩ := objectFrom_tooManyDigits ho
      exact ⟨n, hn, hd, rfl⟩

end Summary

namespace Refiner

variable {σ : Type} {r : Refiner} {service : Service σ}

/-- The summary that a text holds, or the failure, which is reported but for one way. -/
theorem parse_broken {text : Text} {why : Breakdown} (h : parse text = .error (.broken why)) :
    ∃ n, Json.maxDigits < n ∧ text.HoldsDigits n ∧ why = ⟨.value, Json.tooManyDigitsMessage n⟩ := by
  unfold parse at h
  cases hf : Summary.ofText text with
  | ok summary =>
    rw [hf] at h
    cases h
  | error fault =>
    rw [hf] at h
    exact Summary.ofText_broken hf (Except.error.inj h)

/-! ## Services that answer -/

/-- The service answers with texts, or reports its failures. -/
def Answers (service : Service σ) : Prop := ∀ call s why, (service call s).1 ≠ .error (.broken why)

/-- The service has this text for an answer. -/
def Says (service : Service σ) (text : Text) : Prop := ∃ call s, (service call s).1 = .ok text

variable (service) in
/-- What a stage may come to: drafts are answers, and so is what breaks the work. -/
inductive Foreseen : Except Failure (Option Draft) → Prop where
  | draft (d : Draft) : d.text = [] ∨ Says service d.text → Foreseen (.ok (some d))
  | nothing : Foreseen (.ok none)
  | reported (message : Text) : Foreseen (.error (.reported message))
  | broken {text : Text} {why : Breakdown} : Says service text → parse text = .error (.broken why) →
      Foreseen (.error (.broken why))

/-- A call to the service. -/
theorem ask_cases (hs : Answers service) (messages : List Message) (t : Talk σ) :
    (∃ text t', r.ask service messages t = (.ok text, t') ∧ Says service text) ∨
      ∃ message t', r.ask service messages t = (.error (.reported message), t') := by
  rw [ask_eq]
  cases h : (service (r.call messages) t.state).1 with
  | ok text => exact .inl ⟨text, _, rfl, _, _, h⟩
  | error e =>
    cases e with
    | reported message => exact .inr ⟨message, _, rfl⟩
    | broken why => exact absurd h (hs _ _ why)

/-- The last draft, which is a summary, or is repaired. -/
theorem foreseen_coerce (hs : Answers service) (filePrompt : Text) {d : Draft} (t : Talk σ)
    (hd : d.text = [] ∨ Says service d.text) :
    Foreseen service (r.work service filePrompt d t .coerce).1 := by
  rw [work_coerce, coerce_eq]
  cases hp : parse d.text with
  | ok summary => exact .draft _ hd
  | error e =>
    cases e with
    | broken why =>
      rcases hd with hd | hd
      · rw [hd] at hp
        cases hp
      · exact .broken hd hp
    | reported message =>
      rcases ask_cases (r := r) hs (Prompt.repair d.text message Summary.instructions) t with
        ⟨text, t', ha, hsays⟩ | ⟨m, t', ha⟩
      · simp only [ha, accept_eq]
        cases hq : parse text with
        | ok summary => exact .draft _ hd
        | error e =>
          cases e with
          | reported m => exact .nothing
          | broken why => exact .broken hsays hq
      · simp only [ha]
        exact .reported m

/-- **The work of a stage.** -/
theorem foreseen_work (hs : Answers service) (filePrompt : Text) {d : Draft} (t : Talk σ)
    (hd : d.text = [] ∨ Says service d.text) (s : Stage) :
    Foreseen service (r.work service filePrompt d t s).1 := by
  cases s with
  | draft =>
    rcases ask_cases (r := r) hs d.conversation t with ⟨text, t', ha, hsays⟩ | ⟨m, t', ha⟩
    · simp only [work, ha]
      exact .draft _ (.inr hsays)
    · simp only [work, ha]
      exact .reported m
  | verify =>
    rcases ask_cases (r := r) hs (Prompt.verification d.text) t with
      ⟨questions, t', hq, -⟩ | ⟨m, t', hq⟩
    · rcases ask_cases (r := r) hs (Prompt.correction questions filePrompt) t' with
        ⟨answers, t'', ha, -⟩ | ⟨m, t'', ha⟩
      · simp only [work, hq, ha]
        exact .draft _ hd
      · simp only [work, hq, ha]
        exact .reported m
    · simp only [work, hq]
      exact .reported m
  | densify => exact .draft _ hd
  | coerce => exact foreseen_coerce hs filePrompt t hd
  | accepted => exact .draft _ hd
  | failed => exact .draft _ hd

/-- **The work from a stage on** breaks down at an answer alone. -/
theorem continueFrom_broken (hs : Answers service) {filePrompt : Text} {s : Stage} {round : Nat}
    {d : Draft} {t : Talk σ} {why : Breakdown} (hd : d.text = [] ∨ Says service d.text)
    (h : (r.continueFrom service filePrompt s round d t).1 = .error why) :
    ∃ text, Says service text ∧ parse text = .error (.broken why) := by
  fun_induction continueFrom r service filePrompt s round d t with
  | case1 => cases h
  | case2 s round d t _ result t' hw why' hsettle =>
    have hf := foreseen_work (r := r) hs filePrompt t hd s
    rw [hw] at hf
    cases h
    cases hf with
    | broken hsays hp =>
      cases hsettle
      exact ⟨_, hsays, hp⟩
    | draft | nothing | reported => cases hsettle
  | case3 => cases h
  | case4 s round d t _ result t' hw succeeded d' hsettle next _ ih =>
    have hf := foreseen_work (r := r) hs filePrompt t hd s
    rw [hw] at hf
    refine ih ?_ h
    cases hf with
    | draft d'' hd'' =>
      cases hsettle
      exact hd''
    | nothing | reported =>
      cases hsettle
      exact hd
    | broken => cases hsettle

/-! ## Numbers that are too long -/

/-- A number of so many digits, and a closing brace. -/
def longDigits (n : Nat) : Text := List.replicate n (Point.ofChar '1') ++ [Point.ofChar '}']

/-- An object with a whole number of so many digits. -/
def longNumber (n : Nat) : Text :=
  Point.ofChar '{' :: Point.ofChar '"' :: Point.ofChar 'n' :: Point.ofChar '"' ::
    Point.ofChar ':' :: longDigits n

theorem atom_longDigits {n : Nat} (h : Json.maxDigits < n) :
    Json.Reader.atom (longDigits n) = .error (.tooManyDigits n) := by
  obtain ⟨m, rfl⟩ : ∃ m, n = m + 1 := ⟨n - 1, by omega⟩
  have hw : Json.Reader.IsWhole (List.replicate (m + 1) '1') :=
    .inr ⟨'1', List.replicate m '1', rfl, by decide, fun d hd => List.eq_of_mem_replicate hd ▸ rfl⟩
  have hends : Json.Reader.Ends [Point.ofChar '}'] := by
    intro c hc
    cases hc
    decide
  have hu : Json.Reader.unsignedNumber? false
      ((List.replicate (m + 1) '1').map Point.ofChar ++ [Point.ofChar '}']) =
        some (.error (.tooManyDigits (m + 1))) := by
    unfold Json.Reader.unsignedNumber?
    rw [Json.Reader.wholePart?_append hw hends.endsDigits]
    simp only [Option.map_some, hends.fraction?, Option.getD_none, hends.exponent?, if_true,
      List.length_map, List.length_replicate, h]
  rw [List.map_replicate] at hu
  exact Json.Reader.atom_of_digit rfl hu

theorem members_longNumber {n : Nat} (h : Json.maxDigits < n) (k : Nat) :
    Json.Reader.members (k + 2) (Point.ofChar '"' :: Point.ofChar 'n' :: Point.ofChar '"' ::
      Point.ofChar ':' :: longDigits n) = .error (.tooManyDigits n) := by
  have hvalue : Json.Reader.value (k + 1) (longDigits n) = .error (.tooManyDigits n) := by
    obtain ⟨m, rfl⟩ : ∃ m, n = m + 1 := ⟨n - 1, by omega⟩
    exact atom_longDigits h
  have hskip : Json.Reader.skipSpace (longDigits n) = longDigits n := by
    obtain ⟨m, rfl⟩ : ∃ m, n = m + 1 := ⟨n - 1, by omega⟩
    rfl
  have hkey : ∀ opened, Json.Reader.stringBody opened
      (Point.ofChar 'n' :: Point.ofChar '"' :: Point.ofChar ':' :: longDigits n) =
        .ok ([Point.ofChar 'n'], Point.ofChar ':' :: longDigits n) := by
    intro opened
    have hn : [Point.ofChar 'n'].flatMap Json.writePoint = [Point.ofChar 'n'] := by decide
    have hs := Json.Reader.stringBody_writeText opened [Point.ofChar 'n']
      (Point.ofChar ':' :: longDigits n)
    rw [hn] at hs
    exact hs
  rw [Json.Reader.members.eq_def]
  show (Json.Reader.stringBody _ (_ :: _ :: _ :: longDigits n) >>= _) = _
  rw [hkey]
  show (Json.Reader.value (k + 1) (Json.Reader.skipSpace (longDigits n)) >>= _) = _
  rw [hskip, hvalue]
  rfl

theorem readFront_longNumber {n : Nat} (h : Json.maxDigits < n) :
    Json.readFront (longNumber n) = .error (.tooManyDigits n) := by
  have hlen : 2 * (longNumber n).length + 1 = 2 * n + 10 + 3 := by
    simp [longNumber, longDigits]
    omega
  rw [Json.readFront, hlen]
  show (Json.Reader.members (2 * n + 10 + 2) _ >>= _) = _
  rw [members_longNumber h]
  rfl

theorem parse_longNumber {n : Nat} (h : Json.maxDigits < n) :
    parse (longNumber n) = .error (.broken ⟨.value, Json.tooManyDigitsMessage n⟩) := by
  have hobject : Summary.objectFrom (longNumber n) none (longNumber n) = .error (.tooManyDigits n) := by
    have hfront := readFront_longNumber h
    unfold longNumber at hfront ⊢
    rw [Summary.objectFrom, if_pos rfl, hfront]
  rw [parse, Summary.ofText, Summary.firstObject, hobject]
  rfl

/-- The service that gives the same answer to every call. -/
def saying (text : Text) : Service Unit := fun _ s => (.ok text, s)

/-- A stage that is not final yields the same text, or breaks the work. -/
theorem work_saying (filePrompt : Text) {text : Text} {s : Stage} {d : Draft} {why : Breakdown}
    (t : Talk Unit) (hp : parse text = .error (.broken why)) (hs : s.isFinal = false)
    (hd : s = .draft ∨ d.text = text) :
    (r.work (saying text) filePrompt d t s).1 = .error (.broken why) ∨
      s ≠ .coerce ∧ ∃ d', (r.work (saying text) filePrompt d t s).1 = .ok (some d') ∧
        d'.text = text := by
  cases s with
  | draft => exact .inr ⟨by simp, _, rfl, rfl⟩
  | verify => exact .inr ⟨by simp, _, rfl, hd.resolve_left (by simp)⟩
  | densify => exact .inr ⟨by simp, _, rfl, hd.resolve_left (by simp)⟩
  | coerce =>
    left
    rw [work_coerce, coerce_eq, hd.resolve_left (by simp), hp]
  | accepted | failed => cases hs

/-- Only the last stage is followed by the end of the work. -/
theorem isFinal_next {s next : Stage} {round rounds : Int} (hs : s.isFinal = false)
    (hc : s ≠ .coerce) (h : s.next? round rounds true = some next) : next.isFinal = false := by
  cases s <;> grind [Stage.next?, Stage.isFinal]

theorem next?_ne_none {s : Stage} {round rounds : Int} {succeeded : Bool} (hs : s.isFinal = false) :
    s.next? round rounds succeeded ≠ none := by
  cases s <;> grind [Stage.next?, Stage.isFinal]

/-- **Drafts that break the work** do so at the latest when they are to be summaries. -/
theorem continueFrom_saying {text filePrompt : Text} {s : Stage} {round : Nat} {d : Draft}
    {t : Talk Unit} {why : Breakdown} (hp : parse text = .error (.broken why))
    (hs : s.isFinal = false) (hd : s = .draft ∨ d.text = text) :
    (r.continueFrom (saying text) filePrompt s round d t).1 = .error why := by
  fun_induction continueFrom r (saying text) filePrompt s round d t with
  | case1 s round d t hfinal => simp [hs] at hfinal
  | case2 s round d t _ result t' hw why' hsettle =>
    have hresult := work_saying (r := r) filePrompt t hp hs hd
    rw [hw] at hresult
    rcases hresult with rfl | ⟨-, d', rfl, -⟩ <;> cases hsettle
    rfl
  | case3 s round d t _ result t' hw succeeded d' hsettle hnext => exact absurd hnext (next?_ne_none hs)
  | case4 s round d t _ result t' hw succeeded d' hsettle next hnext ih =>
    have hresult := work_saying (r := r) filePrompt t hp hs hd
    rw [hw] at hresult
    rcases hresult with rfl | ⟨hc, d'', rfl, hd''⟩ <;> cases hsettle
    exact ih (isFinal_next hs hc hnext) (.inr hd'')

/-- **What breaks the work on a file.** With a service that answers, or reports its failures, there
is a summary or none, unless some answer holds a whole number of more digits than are read. Such an
answer breaks the work, whatever the rounds, tiers and limits. -/
theorem summarize_breakdowns (r : Refiner) (prompt : Text) :
    (∀ {σ : Type} (service : Service σ) (state : σ), Answers service →
      (∃ summary, (r.summarize service prompt state).1 = .ok summary) ∨
        ∃ text n, Says service text ∧ Json.maxDigits < n ∧ text.HoldsDigits n ∧
          parse text = .error (.broken ⟨.value, Json.tooManyDigitsMessage n⟩) ∧
          (r.summarize service prompt state).1 = .error ⟨.value, Json.tooManyDigitsMessage n⟩) ∧
    ∀ n, Json.maxDigits < n →
      parse (longNumber n) = .error (.broken ⟨.value, Json.tooManyDigitsMessage n⟩) ∧
      (r.summarize (saying (longNumber n)) prompt ()).1 =
        .error ⟨.value, Json.tooManyDigitsMessage n⟩ := by
  refine ⟨fun {σ} service state hs => ?_, fun n hn => ⟨parse_longNumber hn, ?_⟩⟩
  · cases hr : (r.summarize service prompt state).1 with
    | ok summary => exact .inl ⟨summary, rfl⟩
    | error why =>
      obtain ⟨text, hsays, hp⟩ := continueFrom_broken hs (.inl rfl) hr
      obtain ⟨n, hn, hd, rfl⟩ := parse_broken hp
      exact .inr ⟨text, n, hsays, hn, hd, hp, rfl⟩
  · exact continueFrom_saying (parse_longNumber hn) rfl (.inl rfl)

/-- A short answer, and one with the shortest number that is too long. -/
theorem summarize_breakdowns_twoAnswers :
    (∃ summary, (twoRounds.summarize (saying "d") "p" ()).1 = .ok summary) ∧
      (twoRounds.summarize (saying (longNumber 4301)) "p" ()).1 =
        .error ⟨.value, Json.tooManyDigitsMessage 4301⟩ := by
  obtain ⟨hanswers, hlong⟩ := summarize_breakdowns twoRounds "p"
  refine ⟨?_, (hlong 4301 (by decide)).2⟩
  rcases hanswers (saying "d") () (fun _ _ _ h => by cases h) with
    h | ⟨text, n, ⟨call, s, hsays⟩, hn, ⟨ds, hds, rfl, -⟩, -⟩
  · exact h
  · cases hsays
    have hle : ds.length ≤ 1 := hds.length_le
    have hmax : 4300 < ds.length := hn
    omega

end Refiner

end SourceAtlas
