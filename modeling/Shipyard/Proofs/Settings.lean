import Shipyard.Proofs.Text.Digits
import Shipyard.Proofs.Text.Trimming
import Shipyard.Settings

/-!
# Which settings are accepted

Seven variables are judged, in a fixed order. If none of them has a value that does not do, every
setting is what its variable gives, or its default; if any has, the first of them is named.
-/

namespace Shipyard.Settings

/-! ## Variables -/

/-- A variable is set to a value if that is not blank. -/
def Source.Sets (source : Source) (name v : String) : Prop :=
  source name = some v ∧ ¬ Text.IsBlank v.toList

/-- What a variable gives: what its value means, or the default if it is not set. -/
def Source.Gives {α : Type} (source : Source) (name : String) (Means : String → α → Prop)
    (default x : α) : Prop :=
  (∃ v, source.Sets name v ∧ Means v x) ∨ (∀ v, ¬ source.Sets name v) ∧ x = default

section Source

variable {source : Source} {name v w : String}

theorem Source.get_eq_some_iff : source.get name = some v ↔ source.Sets name v := by
  have blank : (Text.trimmed v).isEmpty = true ↔ Text.IsBlank v.toList := by
    rw [Text.trimmed, String.isEmpty_iff, ← Text.trim_eq_nil_iff]
    constructor
    · intro empty
      simpa using congrArg String.toList empty
    · intro nothing
      rw [nothing]
  rw [Source.get, Option.filter_eq_some_iff, Source.Sets, ← blank]
  simp

theorem Source.get_eq_none_iff : source.get name = none ↔ ∀ v, ¬ source.Sets name v := by
  rw [Option.eq_none_iff_forall_ne_some]
  simp only [ne_eq, Source.get_eq_some_iff]

theorem Source.Sets.unique (h : source.Sets name v) (h' : source.Sets name w) : v = w :=
  Option.some.inj (h.1.symm.trans h'.1)

end Source

/-! ## Numerals -/

/-- A numeral: decimal digits, perhaps behind a plus sign, with blanks around or none. -/
def Numeral (v : String) (n : Nat) : Prop :=
  ∃ before sign ds after, v.toList = before ++ (sign ++ ds) ++ after ∧ Text.IsBlank before ∧
    Text.IsBlank after ∧ (sign = [] ∨ sign = ['+']) ∧ ds ≠ [] ∧ Text.AreDigits ds ∧
      Text.valueOf ds = n

theorem solid_of_isDigit {c : Char} (digit : c.isDigit = true) : Text.isBlank c = false := by
  have bounds : 48 ≤ c.toNat ∧ c.toNat ≤ 57 := by
    simpa [Char.isDigit, UInt32.le_iff_toNat_le] using digit
  rw [Bool.eq_false_iff]
  intro blank
  simp only [Text.isBlank, Bool.or_eq_true, Bool.and_eq_true, decide_eq_true_eq, beq_iff_eq] at blank
  omega

/-- A numeral is what trimming leaves. -/
theorem numeral_iff_trim {v : String} {n : Nat} :
    Numeral v n ↔ ∃ sign ds, Text.trim v.toList = sign ++ ds ∧ (sign = [] ∨ sign = ['+']) ∧
      ds ≠ [] ∧ Text.AreDigits ds ∧ Text.valueOf ds = n := by
  constructor
  · rintro ⟨before, sign, ds, after, same, blank, blank', signed, rest⟩
    refine ⟨sign, ds, ?_, signed, rest⟩
    have solid : ∀ c ∈ sign ++ ds, Text.isBlank c = false := by
      intro c mem
      rcases List.mem_append.mp mem with mem | mem
      · have plus : c = '+' := by
          rcases signed with rfl | rfl
          · cases mem
          · exact List.mem_singleton.mp mem
        rw [plus]
        decide
      · exact solid_of_isDigit (rest.2.1 c mem)
    rw [same, Text.trim_append_blanks blank blank']
    exact Text.trim_of_solid (fun c mem => solid c (List.mem_of_head? mem))
      fun c mem => solid c (List.mem_of_getLast? mem)
  · rintro ⟨sign, ds, same, rest⟩
    obtain ⟨before, after, blank, blank', whole⟩ := Text.exists_trim v.toList
    rw [same] at whole
    exact ⟨before, sign, ds, after, whole, blank, blank', rest⟩

/-- Digits behind others of value `n` are read as the value of all, if that is below the limit. -/
theorem digitsBelow_eq_ok_iff {limit n m : Nat} (small : n < limit) {cs : List Char} :
    digitsBelow limit n cs = .ok m ↔
      Text.AreDigits cs ∧ n * 10 ^ cs.length + Text.valueOf cs = m ∧ m < limit := by
  induction cs generalizing n with
  | nil =>
    have value : n * 10 ^ ([] : List Char).length + Text.valueOf [] = n := by
      simp [Text.valueOf]
    rw [digitsBelow, Except.ok.injEq, value]
    constructor
    · rintro rfl
      exact ⟨List.forall_mem_nil _, rfl, small⟩
    · rintro ⟨-, same, -⟩
      exact same
  | cons c cs ih =>
    have value : n * 10 ^ (c :: cs).length + Text.valueOf (c :: cs) =
        (10 * n + (c.toNat - 48)) * 10 ^ cs.length + Text.valueOf cs := by
      rw [← Text.foldl_valueOf, ← Text.foldl_valueOf, List.foldl_cons]
    rw [value, digitsBelow, Text.AreDigits, List.forall_mem_cons]
    split
    · next other =>
      constructor
      · intro read
        cases read
      · rintro ⟨⟨digit, -⟩, -⟩
        rw [digit] at other
        cases other
    · next digit =>
      rw [Bool.not_eq_false] at digit
      split
      · next fits =>
        rw [ih fits]
        simp only [digit, true_and]
        exact Iff.rfl
      · next large =>
        constructor
        · intro read
          cases read
        · rintro ⟨-, rfl, bounded⟩
          have power : 0 < 10 ^ cs.length := Nat.pow_pos (by omega)
          have more := Nat.le_mul_of_pos_right (10 * n + (c.toNat - 48)) power
          omega

theorem digitsBelow_zero_eq_ok_iff {limit m : Nat} (positive : 0 < limit) {cs : List Char} :
    digitsBelow limit 0 cs = .ok m ↔ Text.AreDigits cs ∧ Text.valueOf cs = m ∧ m < limit := by
  rw [digitsBelow_eq_ok_iff positive, Nat.zero_mul, Nat.zero_add]

theorem areDigits_ne_plus {cs : List Char} (digits : Text.AreDigits cs) (rest : List Char) :
    cs ≠ '+' :: rest := by
  rintro rfl
  exact absurd (digits '+' (by simp)) (by decide)

theorem numberBelow_eq_ok_iff {limit n : Nat} (positive : 0 < limit) {v : String}
    (solid : ¬ Text.IsBlank v.toList) : numberBelow limit v = .ok n ↔ Numeral v n ∧ n < limit := by
  rw [numeral_iff_trim, numberBelow]
  rw [← Text.trim_eq_nil_iff] at solid
  generalize Text.trim v.toList = cs at solid
  constructor
  · intro read
    split at read
    · cases read
    · next rest more =>
      obtain ⟨digits, value, bounded⟩ := (digitsBelow_zero_eq_ok_iff positive).mp read
      refine ⟨⟨['+'], rest, rfl, Or.inr rfl, ?_, digits, value⟩, bounded⟩
      rintro rfl
      exact more rfl
    · obtain ⟨digits, value, bounded⟩ := (digitsBelow_zero_eq_ok_iff positive).mp read
      exact ⟨⟨[], cs, rfl, Or.inl rfl, solid, digits, value⟩, bounded⟩
  · rintro ⟨⟨sign, ds, rfl, signed, some, digits, value⟩, bounded⟩
    have read := (digitsBelow_zero_eq_ok_iff positive).mpr ⟨digits, value, bounded⟩
    rcases signed with rfl | rfl
    · rw [List.nil_append]
      split
      · exact absurd rfl (areDigits_ne_plus digits _)
      · exact absurd rfl (areDigits_ne_plus digits _)
      · exact read
    · cases ds with
      | nil => exact absurd rfl some
      | cons d ds => exact read

/-- A numeral of a number from `low` on and below `limit`. -/
def NumeralIn (low limit : Nat) (v : String) (n : Nat) : Prop :=
  Numeral v n ∧ low ≤ n ∧ n < limit

/-- A numeral of a span in milliseconds, which are counted in 64 bits. -/
def MillisIn (v : String) (span : Span) : Prop :=
  ∃ n, NumeralIn 0 0x10000000000000000 v n ∧ span = .ofMillis n

/-- The name of a format, in whatever case. -/
def NamesFormat (v : String) (f : LogFormat) : Prop := v.map Char.toLower = f.name

/-! ## Reading one variable -/

section Reads

variable {α β : Type} {source : Source} {name v : String} {Means : String → α → Prop}
  {default : α} {r : Except Error α}

theorem bind_eq_ok_iff {f : α → Except Error β} {y : β} :
    (r >>= f) = .ok y ↔ ∃ x, r = .ok x ∧ f x = .ok y := by
  constructor
  · intro done
    cases r with
    | ok x => exact ⟨x, rfl, done⟩
    | error e => cases done
  · rintro ⟨x, rfl, done⟩
    exact done

theorem map_eq_ok_iff {f : α → β} {y : β} : r.map f = .ok y ↔ ∃ x, r = .ok x ∧ y = f x := by
  constructor
  · intro done
    cases r with
    | ok x => exact ⟨x, rfl, (Except.ok.inj done).symm⟩
    | error e => cases done
  · rintro ⟨x, rfl, rfl⟩
    rfl

theorem Source.gives_of_none (got : source.get name = none) (x : α) :
    source.Gives name Means default x ↔ default = x := by
  have free := Source.get_eq_none_iff.mp got
  constructor
  · rintro (⟨v, set, -⟩ | ⟨-, same⟩)
    · exact absurd set (free v)
    · exact same.symm
  · rintro rfl
    exact Or.inr ⟨free, rfl⟩

theorem Source.gives_of_some (got : source.get name = some v) (x : α) :
    source.Gives name Means default x ↔ Means v x := by
  have set := Source.get_eq_some_iff.mp got
  constructor
  · rintro (⟨w, set', meant⟩ | ⟨free, -⟩)
    · rwa [set.unique set']
    · exact absurd set (free v)
  · intro meant
    exact Or.inl ⟨v, set, meant⟩

/-- A reading of one variable: it comes to what the variable gives, and an error names it. -/
structure Reads (source : Source) (name : String) (Means : String → α → Prop) (default : α)
    (r : Except Error α) : Prop where
  gives : ∀ x, r = .ok x ↔ source.Gives name Means default x
  names : ∀ e, r = .error e → e.name = name

/-- There is an error only if the variable is set to a value without a meaning. -/
theorem Reads.offended {e : Error} (h : Reads source name Means default r) (wrong : r = .error e) :
    ∃ v, source.Sets name v ∧ ¬ ∃ x, Means v x := by
  have unread : ∀ x, ¬ source.Gives name Means default x := by
    intro x given
    rw [(h.gives x).mpr given] at wrong
    cases wrong
  cases got : source.get name with
  | none => exact absurd ((Source.gives_of_none got default).mpr rfl) (unread default)
  | some v =>
    refine ⟨v, Source.get_eq_some_iff.mp got, ?_⟩
    rintro ⟨x, meant⟩
    exact unread x ((Source.gives_of_some got x).mpr meant)

theorem Reads.sound {x : α} (h : Reads source name Means default r) (read : r = .ok x) :
    ¬ ∃ v, source.Sets name v ∧ ¬ ∃ x, Means v x := by
  rintro ⟨v, set, senseless⟩
  have given := (h.gives x).mp read
  rw [Source.gives_of_some (Source.get_eq_some_iff.mpr set)] at given
  exact senseless ⟨x, given⟩

theorem number_of_none {limit default : Nat} (got : source.get name = none) :
    number source name limit default = .ok default := by
  rw [number, got]

theorem number_of_some {limit default : Nat} (got : source.get name = some v) :
    number source name limit default =
      match numberBelow limit v with
      | .ok n => .ok n
      | .error reason => .error ⟨name, v, reason⟩ := by
  have read : number source name limit default =
      (numberBelow limit v).mapError fun reason => ⟨name, v, reason⟩ := by
    rw [number, got]
  rw [read]
  cases numberBelow limit v with
  | ok n => rfl
  | error reason => rfl

theorem number_eq_ok_iff {limit default n : Nat} (positive : 0 < limit)
    (got : source.get name = some v) :
    number source name limit default = .ok n ↔ Numeral v n ∧ n < limit := by
  have solid := (Source.get_eq_some_iff.mp got).2
  rw [← numberBelow_eq_ok_iff positive solid, number_of_some got]
  split
  · next m read => rw [read, Except.ok.injEq, Except.ok.injEq]
  · next reason read =>
    rw [read]
    constructor <;> intro h <;> cases h

theorem number_names {limit default : Nat} {e : Error}
    (wrong : number source name limit default = .error e) : e.name = name := by
  cases got : source.get name with
  | none =>
    rw [number_of_none got] at wrong
    cases wrong
  | some v =>
    rw [number_of_some got] at wrong
    split at wrong
    · cases wrong
    · cases wrong
      rfl

theorem number_reads {limit default : Nat} (positive : 0 < limit) :
    Reads source name (NumeralIn 0 limit) default (number source name limit default) := by
  refine ⟨?_, fun e wrong => number_names wrong⟩
  intro n
  cases got : source.get name with
  | none => rw [Source.gives_of_none got, number_of_none got, Except.ok.injEq]
  | some v =>
    rw [Source.gives_of_some got, number_eq_ok_iff positive got, NumeralIn]
    simp

/-- A number that is to be at least one. -/
def count (source : Source) (name : String) (default : Nat) : Except Error Nat := do
  let n ← number source name 0x100000000 default
  positive name n

theorem positive_eq_ok_iff {m n : Nat} : positive name m = .ok n ↔ m = n ∧ 1 ≤ n := by
  rw [positive]
  split
  · next zero =>
    constructor
    · intro h
      cases h
    · omega
  · next more =>
    rw [Except.ok.injEq]
    omega

theorem count_reads {default : Nat} (some : 0 < default) :
    Reads source name (NumeralIn 1 0x100000000) default (count source name default) := by
  constructor
  · intro n
    rw [count, bind_eq_ok_iff]
    simp only [positive_eq_ok_iff]
    cases got : source.get name with
    | none =>
      rw [Source.gives_of_none got, number_of_none got]
      constructor
      · rintro ⟨m, read, rfl, -⟩
        exact Except.ok.inj read
      · rintro rfl
        exact ⟨default, rfl, rfl, some⟩
    | some v =>
      rw [Source.gives_of_some got]
      simp only [number_eq_ok_iff (by omega : 0 < 0x100000000) got, NumeralIn]
      constructor
      · rintro ⟨m, ⟨numeral, bounded⟩, rfl, one⟩
        exact ⟨numeral, one, bounded⟩
      · rintro ⟨numeral, one, bounded⟩
        exact ⟨n, ⟨numeral, bounded⟩, rfl, one⟩
  · intro e wrong
    rw [count] at wrong
    cases read : number source name 0x100000000 default with
    | error e' =>
      rw [read] at wrong
      cases wrong
      exact number_names read
    | ok m =>
      rw [read] at wrong
      have refused : positive name m = .error e := wrong
      rw [positive] at refused
      split at refused
      · cases refused
        rfl
      · cases refused

theorem Reads.map (h : Reads source name Means default r) (f : α → β) :
    Reads source name (fun v y => ∃ x, Means v x ∧ y = f x) (f default) (r.map f) := by
  constructor
  · intro y
    rw [map_eq_ok_iff]
    simp only [h.gives]
    cases got : source.get name with
    | none =>
      simp only [Source.gives_of_none got]
      constructor
      · rintro ⟨x, rfl, rfl⟩
        rfl
      · rintro rfl
        exact ⟨default, rfl, rfl⟩
    | some v => simp only [Source.gives_of_some got]
  · intro e wrong
    apply h.names e
    cases r with
    | ok x => cases wrong
    | error e' => cases wrong; rfl

theorem millis_reads (n : Nat) :
    Reads source name MillisIn (.ofMillis n) (millis source name (.ofMillis n)) := by
  have whole : (Span.ofMillis n).nanos / 1000000 = n := Nat.mul_div_cancel n (by omega)
  rw [millis, whole]
  exact (number_reads (by omega)).map Span.ofMillis

theorem format_reads :
    Reads source "LOG_FORMAT" NamesFormat defaults.logFormat (format source) := by
  constructor
  · intro f
    cases got : source.get "LOG_FORMAT" with
    | none => rw [Source.gives_of_none got, format, got, Except.ok.injEq]
    | some v =>
      rw [Source.gives_of_some got, format, got, NamesFormat]
      simp only [sameLetters, decide_eq_true_eq]
      split
      · next json =>
        rw [json, Except.ok.injEq]
        cases f <;> simp [LogFormat.name]
      · split
        · next pretty =>
          rw [pretty, Except.ok.injEq]
          cases f <;> simp [LogFormat.name]
        · next json pretty =>
          constructor
          · intro h
            cases h
          · intro same
            cases f with
            | pretty => exact absurd same pretty
            | json => exact absurd same json
  · intro e wrong
    rw [format] at wrong
    split at wrong
    · cases wrong
    · split at wrong
      · cases wrong
      · split at wrong
        · cases wrong
        · cases wrong
          rfl

end Reads

/-! ## Reading all of them -/

/-- A variable that is judged, and which values of it do. -/
structure Variable where
  name : String
  Accepts : String → Prop

/-- A variable whose values are to have a meaning. -/
def Variable.of {α : Type} (name : String) (Means : String → α → Prop) : Variable :=
  ⟨name, fun v => ∃ x, Means v x⟩

/-- The variable is set to a value that does not do. -/
def Variable.Offends (x : Variable) (source : Source) : Prop :=
  ∃ v, source.Sets x.name v ∧ ¬ x.Accepts v

/-- The variables that are judged, in their order. -/
def judged : List Variable := [
  .of "LOG_FORMAT" NamesFormat,
  .of "PORT" (NumeralIn 0 0x10000),
  .of "GATEWAY_PORT" (NumeralIn 0 0x10000),
  .of "BUS_PARTITIONS" (NumeralIn 1 0x100000000),
  .of "CONSUMER_MAX_ATTEMPTS" (NumeralIn 1 0x100000000),
  .of "RPC_TIMEOUT_MS" MillisIn,
  .of "ASSEMBLY_TIME_UNIT_MS" MillisIn]

/-- The name of the first variable in a list that offends. -/
def NamesFirst (source : Source) (xs : List Variable) (name : String) : Prop :=
  ∃ before x after, xs = before ++ x :: after ∧ (∀ y ∈ before, ¬ y.Offends source) ∧
    x.Offends source ∧ name = x.name

/-- A reading of several variables one after another: none of them offends, or the first that does
is named. -/
def Judges {α : Type} (source : Source) (xs : List Variable) : Except Error α → Prop
  | .ok _ => ∀ x ∈ xs, ¬ x.Offends source
  | .error e => NamesFirst source xs e.name

theorem Reads.judges {α β : Type} {source : Source} {name : String} {Means : String → α → Prop}
    {default : α} {r : Except Error α} (h : Reads source name Means default r) {xs : List Variable}
    {f : α → Except Error β} (later : ∀ x, Judges source xs (f x)) :
    Judges source (.of name Means :: xs) (r >>= f) := by
  cases r with
  | error e => exact ⟨[], _, xs, rfl, by simp, h.offended rfl, h.names e rfl⟩
  | ok x =>
    have fine : ¬ (Variable.of name Means).Offends source := h.sound rfl
    have rest := later x
    show Judges source _ (f x)
    cases read : f x with
    | ok y =>
      rw [read] at rest
      exact List.forall_mem_cons.mpr ⟨fine, rest⟩
    | error e =>
      rw [read] at rest
      obtain ⟨before, y, after, rfl, clean, offends, named⟩ := rest
      exact ⟨_ :: before, y, after, rfl, List.forall_mem_cons.mpr ⟨fine, clean⟩, offends, named⟩

/-- Every setting is what its variable gives. -/
structure Describes (source : Source) (s : Settings) : Prop where
  logFormat : source.Gives "LOG_FORMAT" NamesFormat defaults.logFormat s.logFormat
  port : source.Gives "PORT" (NumeralIn 0 0x10000) defaults.port s.port
  gatewayPort : source.Gives "GATEWAY_PORT" (NumeralIn 0 0x10000) defaults.gatewayPort s.gatewayPort
  partitions : source.Gives "BUS_PARTITIONS" (NumeralIn 1 0x100000000) defaults.partitions
    s.partitions
  maxAttempts : source.Gives "CONSUMER_MAX_ATTEMPTS" (NumeralIn 1 0x100000000) defaults.maxAttempts
    s.maxAttempts
  deadline : source.Gives "RPC_TIMEOUT_MS" MillisIn defaults.deadline s.deadline
  buildUnit : source.Gives "ASSEMBLY_TIME_UNIT_MS" MillisIn defaults.buildUnit s.buildUnit
  host : source.Gives "HOST" Eq defaults.host s.host
  logLevel : source.Gives "RUST_LOG" Eq defaults.logLevel s.logLevel
  database : ∀ v, s.database = some v ↔ source.Sets "DATABASE_URL" v
  /-- A bot is there only if both its variables are set. -/
  bot : ∀ b, s.bot = some b ↔
    source.Sets "TELEGRAM_BOT_TOKEN" b.token ∧ source.Sets "TELEGRAM_CHAT_ID" b.chat

section Read

variable {source : Source}

/-- The settings that come with what was read of the judged variables. -/
def settled (source : Source) (logFormat : LogFormat) (port gatewayPort partitions maxAttempts : Nat)
    (deadline buildUnit : Span) : Settings :=
  { host := (source.get "HOST").getD defaults.host
    logLevel := (source.get "RUST_LOG").getD defaults.logLevel
    database := source.get "DATABASE_URL"
    bot := bot? source
    port, gatewayPort, logFormat, partitions, maxAttempts, deadline, buildUnit }

theorem read_eq (source : Source) : read source = (do
    let logFormat ← format source
    let port ← number source "PORT" 0x10000 defaults.port
    let gatewayPort ← number source "GATEWAY_PORT" 0x10000 defaults.gatewayPort
    let partitions ← count source "BUS_PARTITIONS" defaults.partitions
    let maxAttempts ← count source "CONSUMER_MAX_ATTEMPTS" defaults.maxAttempts
    let deadline ← millis source "RPC_TIMEOUT_MS" defaults.deadline
    let buildUnit ← millis source "ASSEMBLY_TIME_UNIT_MS" defaults.buildUnit
    .ok (settled source logFormat port gatewayPort partitions maxAttempts deadline buildUnit)) := by
  simp only [read, count, bind_assoc]
  rfl

theorem deadline_reads : Reads source "RPC_TIMEOUT_MS" MillisIn defaults.deadline
    (millis source "RPC_TIMEOUT_MS" defaults.deadline) := millis_reads 5000

theorem buildUnit_reads : Reads source "ASSEMBLY_TIME_UNIT_MS" MillisIn defaults.buildUnit
    (millis source "ASSEMBLY_TIME_UNIT_MS" defaults.buildUnit) := millis_reads 1000

theorem read_judges : Judges source judged (read source) := by
  rw [read_eq]
  refine format_reads.judges fun logFormat => ?_
  refine (number_reads (by omega)).judges fun port => ?_
  refine (number_reads (by omega)).judges fun gatewayPort => ?_
  refine (count_reads (by decide)).judges fun partitions => ?_
  refine (count_reads (by decide)).judges fun maxAttempts => ?_
  refine deadline_reads.judges fun deadline => ?_
  refine buildUnit_reads.judges fun buildUnit => ?_
  intro x mem
  cases mem

theorem gives_getD {name : String} {default x : String} :
    source.Gives name Eq default x ↔ (source.get name).getD default = x := by
  cases got : source.get name with
  | none => rw [Source.gives_of_none got, Option.getD_none]
  | some v => rw [Source.gives_of_some got, Option.getD_some]

theorem bot?_eq_some_iff {b : Bot} : bot? source = some b ↔
    source.Sets "TELEGRAM_BOT_TOKEN" b.token ∧ source.Sets "TELEGRAM_CHAT_ID" b.chat := by
  simp only [bot?, Option.bind_eq_bind, Option.bind_eq_some_iff, Option.some.injEq,
    ← Source.get_eq_some_iff]
  constructor
  · rintro ⟨token, first, chat, second, rfl⟩
    exact ⟨first, second⟩
  · rintro ⟨first, second⟩
    exact ⟨b.token, first, b.chat, second, rfl⟩

theorem read_eq_ok_iff {s : Settings} : read source = .ok s ↔ Describes source s := by
  rw [read_eq]
  simp only [bind_eq_ok_iff, format_reads.gives, (number_reads (by omega : 0 < 0x10000)).gives,
    (count_reads (by decide : 0 < defaults.partitions)).gives,
    (count_reads (by decide : 0 < defaults.maxAttempts)).gives, deadline_reads.gives,
    buildUnit_reads.gives, Except.ok.injEq]
  constructor
  · rintro ⟨logFormat, logFormat', port, port', gatewayPort, gatewayPort', partitions, partitions',
      maxAttempts, maxAttempts', deadline, deadline', buildUnit, buildUnit', rfl⟩
    exact {
      logFormat := logFormat', port := port', gatewayPort := gatewayPort'
      partitions := partitions', maxAttempts := maxAttempts'
      deadline := deadline', buildUnit := buildUnit'
      host := gives_getD.mpr rfl, logLevel := gives_getD.mpr rfl
      database := fun v => Source.get_eq_some_iff, bot := fun b => bot?_eq_some_iff }
  · intro h
    have database : source.get "DATABASE_URL" = s.database := by
      apply Option.ext
      intro v
      rw [Source.get_eq_some_iff, h.database]
    have bot : bot? source = s.bot := by
      apply Option.ext
      intro b
      rw [bot?_eq_some_iff, h.bot]
    refine ⟨_, h.logFormat, _, h.port, _, h.gatewayPort, _, h.partitions, _, h.maxAttempts, _,
      h.deadline, _, h.buildUnit, ?_⟩
    rw [settled, gives_getD.mp h.host, gives_getD.mp h.logLevel, database, bot]

/-- Where nothing is set the defaults are taken, so each of them does. -/
theorem read_of_unset (unset : ∀ name v, ¬ source.Sets name v) : read source = .ok defaults := by
  have free {α : Type} (name : String) (Means : String → α → Prop) (default : α) :
      source.Gives name Means default default := Or.inr ⟨unset name, rfl⟩
  have database (v : String) : defaults.database = some v ↔ source.Sets "DATABASE_URL" v := by
    constructor
    · intro same
      cases same
    · intro set
      exact absurd set (unset _ v)
  have bot (b : Bot) : defaults.bot = some b ↔
      source.Sets "TELEGRAM_BOT_TOKEN" b.token ∧ source.Sets "TELEGRAM_CHAT_ID" b.chat := by
    constructor
    · intro same
      cases same
    · rintro ⟨set, -⟩
      exact absurd set (unset _ b.token)
  rw [read_eq_ok_iff]
  exact {
    logFormat := free _ _ _, port := free _ _ _, gatewayPort := free _ _ _
    partitions := free _ _ _, maxAttempts := free _ _ _
    deadline := free _ _ _, buildUnit := free _ _ _
    host := free _ _ _, logLevel := free _ _ _, database := database, bot := bot }

/-- Which settings are accepted. They are what the variables give; there are some exactly if none of
the judged variables is set to a value that does not do; and otherwise the first that is has its
name told. -/
theorem settings_accepted (source : Source) :
    (∀ s, read source = .ok s ↔ Describes source s) ∧
      ((∃ s, read source = .ok s) ↔ ∀ x ∈ judged, ¬ x.Offends source) ∧
      ∀ e, read source = .error e → NamesFirst source judged e.name := by
  have verdict : Judges source judged (read source) := read_judges
  refine ⟨fun s => read_eq_ok_iff, ?_, ?_⟩
  · constructor
    · rintro ⟨s, accepted⟩
      rwa [accepted] at verdict
    · intro clean
      cases outcome : read source with
      | ok s => exact ⟨s, rfl⟩
      | error e =>
        rw [outcome] at verdict
        obtain ⟨before, x, after, same, -, offends, -⟩ := verdict
        refine absurd offends (clean x ?_)
        rw [same]
        simp
  · intro e refused
    rwa [refused] at verdict

end Read

end Shipyard.Settings
