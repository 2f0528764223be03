import Throttling.Server.Model.Arguments
import Throttling.Common.System
/-!
# The command lines the server accepts

The usage text has two options with a number. `ParseArgs` gives their
values to `stoi` and checks what it answers, not how much of the value it
read, so it also takes loose spellings: a number in range with blanks or
a sign before it, or with something behind it. Here is what it makes of
any list of arguments (`parseArgs_fst`), and on which of them that is
what the usage text says (`acceptsDocumented_iff`).
-/

namespace Throttling

open Decimal

/-! ## What is documented -/

/-- The number of an option, where an argument is the flag and a numeral in
range. -/
def documentedNumber (flag : String) (lowest highest : ℕ) (arg : String) : Option ℕ :=
  if flag.toList <+: arg.toList then
    (numeral? (arg.toList.drop flag.toList.length)).filter fun n => lowest ≤ n ∧ n ≤ highest
  else none

def documentedPort : String → Option ℕ := documentedNumber "--port=" 1 65535

def documentedTimeout : String → Option ℕ :=
  documentedNumber "--heartbeat-timeout=" 0 2147483647

def IsDocumented (arg : String) : Prop :=
  (documentedPort arg).isSome = true ∨ (documentedTimeout arg).isSome = true

/-- **What the usage text promises** of a list of arguments, the program's
name first: a configuration exactly if each is documented, with the
number given last for each option. -/
structure AcceptsDocumented (argv : List String) : Prop where
  accepts_iff : (parseArgs argv).1.isSome = true ↔ ∀ arg ∈ argv.tail, IsDocumented arg
  port : ∀ config, (parseArgs argv).1 = some config →
    config.port.toNat = (argv.tail.filterMap documentedPort).getLast?.getD 50051
  heartbeatTimeout : ∀ config, (parseArgs argv).1 = some config →
    config.heartbeatTimeout = (argv.tail.filterMap documentedTimeout).getLast?.getD 30

/-- **A loose spelling** of an option: more than digits, and its number in
range. -/
def LooselySpells (flag : String) (lowest highest : ℕ) (arg : String) : Prop :=
  ∃ p : Spelling, ¬ p.Plain ∧ arg.toList = flag.toList ++ p.text ∧
    lowest ≤ p.value ∧ p.value ≤ highest

def IsLoose (arg : String) : Prop :=
  LooselySpells "--port=" 1 65535 arg ∨ LooselySpells "--heartbeat-timeout=" 0 2147483647 arg

/-! ## One option -/

namespace NumericOption

variable {o : NumericOption} {arg : String} {n : ℤ} {lowest highest : ℕ}

/-- **An option and the numbers it stores**: its value begins where its flag
ends, and it refuses what is not in range. -/
structure Ranges (o : NumericOption) (lowest highest : ℕ) : Prop where
  valueAt_eq : o.valueAt = o.flag.toList.length
  takes_iff : ∀ n, (FitsInt n ∧ o.refuses n = false) ↔ (lowest ≤ n ∧ n ≤ highest)

theorem ranges_port : portOption.Ranges 1 65535 where
  valueAt_eq := rfl
  takes_iff n := by
    simp only [FitsInt, portOption, Bool.or_eq_false_iff, decide_eq_false_iff_not]
    omega

theorem ranges_heartbeatTimeout : heartbeatTimeoutOption.Ranges 0 2147483647 where
  valueAt_eq := rfl
  takes_iff n := by
    simp only [FitsInt, heartbeatTimeoutOption, decide_eq_false_iff_not]
    omega

/-- The number an option stores of an argument, if it matches and is not
refused. -/
def number? (o : NumericOption) (arg : String) : Option ℤ :=
  if o.Matches arg then
    match stoi (arg.toList.drop o.valueAt) with
    | .ok n => if o.refuses n then none else some n
    | .error _ => none
  else none

/-- **The numbers it stores** are those spelt behind its flag, in range. -/
theorem number?_eq_some_iff (h : o.Ranges lowest highest) : o.number? arg = some n ↔
    (lowest ≤ n ∧ n ≤ highest) ∧
      ∃ p : Spelling, arg.toList = o.flag.toList ++ p.text ∧ p.value = n := by
  constructor
  · intro hnumber
    rw [number?] at hnumber
    split at hnumber
    swap
    · cases hnumber
    rename_i hmatches
    split at hnumber
    swap
    · cases hnumber
    rename_i m hstoi
    split at hnumber
    · cases hnumber
    · rename_i hrefuses
      obtain rfl := Option.some.inj hnumber
      obtain ⟨hfits, p, htext, hvalue⟩ := stoi_eq_ok_iff.mp hstoi
      refine ⟨(h.takes_iff m).mp ⟨hfits, Bool.eq_false_iff.mpr hrefuses⟩, p, ?_, hvalue⟩
      rw [htext, h.valueAt_eq]
      exact (List.prefix_iff_eq_append.mp hmatches).symm
  · rintro ⟨hrange, p, htext, rfl⟩
    obtain ⟨hfits, hrefuses⟩ := (h.takes_iff p.value).mpr hrange
    have hmatches : o.Matches arg := ⟨p.text, htext.symm⟩
    have hdrop : arg.toList.drop o.valueAt = p.text := by
      rw [htext, h.valueAt_eq, List.drop_left]
    rw [number?, if_pos hmatches, hdrop, stoi_eq_ok_iff.mpr ⟨hfits, p, rfl, rfl⟩]
    simp [hrefuses]

end NumericOption

/-- **The documented numbers** are those spelt plainly. -/
theorem documentedNumber_eq_some_iff {flag arg : String} {lowest highest n : ℕ} :
    documentedNumber flag lowest highest arg = some n ↔ (lowest ≤ n ∧ n ≤ highest) ∧
      ∃ p : Spelling, p.Plain ∧ arg.toList = flag.toList ++ p.text ∧ p.value = n := by
  constructor
  · intro hnumber
    rw [documentedNumber] at hnumber
    split at hnumber
    swap
    · cases hnumber
    rename_i hflag
    obtain ⟨hnumeral, hrange⟩ := Option.filter_eq_some_iff.mp hnumber
    obtain ⟨p, hplain, htext, hvalue⟩ := numeral?_eq_some_iff.mp hnumeral
    refine ⟨of_decide_eq_true hrange, p, hplain, ?_, hvalue⟩
    rw [htext]
    exact (List.prefix_iff_eq_append.mp hflag).symm
  · rintro ⟨hrange, p, hplain, htext, hvalue⟩
    have hflag : flag.toList <+: arg.toList := ⟨p.text, htext.symm⟩
    have hnumeral := numeral?_eq_some_iff.mpr ⟨p, hplain, rfl, hvalue⟩
    rw [documentedNumber, if_pos hflag, htext, List.drop_left, hnumeral]
    exact Option.filter_eq_some_iff.mpr ⟨rfl, decide_eq_true hrange⟩

section

variable {o : NumericOption} {arg : String} {lowest highest : ℕ}

/-- A documented argument is no loose spelling: one text is spelt in one
way. -/
theorem not_looselySpells_of_documented {flag : String} {n : ℕ}
    (h : documentedNumber flag lowest highest arg = some n) :
    ¬ LooselySpells flag lowest highest arg := by
  rintro ⟨q, hloose, hq, -⟩
  obtain ⟨-, p, hplain, hp, -⟩ := documentedNumber_eq_some_iff.mp h
  have htext : q.text = p.text := List.append_cancel_left (hq.symm.trans hp)
  rw [Spelling.plain_iff, ← htext, ← Spelling.plain_iff] at hplain
  exact hloose hplain

/-- **Every number stored is documented or loose.** -/
theorem NumericOption.isSome_number?_iff (h : o.Ranges lowest highest) :
    (o.number? arg).isSome = true ↔
      (documentedNumber o.flag lowest highest arg).isSome = true ∨
        LooselySpells o.flag lowest highest arg := by
  constructor
  · intro hsome
    obtain ⟨n, hn⟩ := Option.isSome_iff_exists.mp hsome
    obtain ⟨⟨hlow, hhigh⟩, p, htext, rfl⟩ := (number?_eq_some_iff h).mp hn
    by_cases hplain : p.Plain
    · -- a plain one is a number without a sign
      have hvalue : p.value = p.value.toNat := by omega
      refine .inl (Option.isSome_iff_exists.mpr ⟨p.value.toNat, ?_⟩)
      exact documentedNumber_eq_some_iff.mpr ⟨by omega, p, hplain, htext, hvalue⟩
    · exact .inr ⟨p, hplain, htext, hlow, hhigh⟩
  · rintro (hsome | ⟨p, -, htext, hrange⟩)
    · obtain ⟨n, hn⟩ := Option.isSome_iff_exists.mp hsome
      obtain ⟨hrange, p, -, htext, hvalue⟩ := documentedNumber_eq_some_iff.mp hn
      exact Option.isSome_iff_exists.mpr
        ⟨n, (number?_eq_some_iff h).mpr ⟨by omega, p, htext, hvalue⟩⟩
    · exact Option.isSome_iff_exists.mpr
        ⟨p.value, (number?_eq_some_iff h).mpr ⟨hrange, p, htext, rfl⟩⟩

/-- And without loose spellings it is the documented one. -/
theorem NumericOption.number?_eq_map_documented (h : o.Ranges lowest highest)
    (hloose : ¬ LooselySpells o.flag lowest highest arg) :
    o.number? arg = (documentedNumber o.flag lowest highest arg).map (Nat.cast : ℕ → ℤ) := by
  cases hdocumented : documentedNumber o.flag lowest highest arg with
  | some n =>
    obtain ⟨hrange, p, -, htext, hvalue⟩ := documentedNumber_eq_some_iff.mp hdocumented
    exact (number?_eq_some_iff h).mpr ⟨by omega, p, htext, hvalue⟩
  | none =>
    have hnone : ¬ (o.number? arg).isSome = true := by
      rw [isSome_number?_iff h, hdocumented]
      rintro (hsome | hspells)
      · cases hsome
      · exact hloose hspells
    exact Option.not_isSome_iff_eq_none.mp hnone

end

/-! ## The options apart -/

/-- No argument begins with both flags. -/
theorem not_matches_both {arg : String} (hport : portOption.Matches arg)
    (htimeout : heartbeatTimeoutOption.Matches arg) : False := by
  rcases List.prefix_or_prefix_of_prefix hport htimeout with h | h
  · exact absurd h (by decide)
  · exact absurd h (by decide)

/-- Nor with one where it asks for help. -/
theorem not_matches_of_help {arg : String} (h : arg = "--help" ∨ arg = "-h") :
    ¬ portOption.Matches arg ∧ ¬ heartbeatTimeoutOption.Matches arg := by
  rcases h with rfl | rfl
  · decide
  · decide

theorem NumericOption.matches_of_number? {o : NumericOption} {arg : String} {n : ℤ}
    (h : o.number? arg = some n) : o.Matches arg := by
  rw [number?] at h
  split at h
  · assumption
  · cases h

/-! ## The loop -/

namespace NumericOption

variable {o : NumericOption} {arg : String} {config : ServerConfig}

theorem parse_of_number? {n : ℤ} (h : o.number? arg = some n) :
    o.parse config arg = .ok (o.store config n) := by
  rw [number?, if_pos (matches_of_number? h)] at h
  unfold parse
  split at h
  · rename_i m hstoi
    split at h
    · cases h
    · rename_i hrefuses
      obtain rfl := Option.some.inj h
      simp [hstoi, hrefuses]
  · cases h

theorem exists_error_of_number?_eq_none (hmatches : o.Matches arg) (h : o.number? arg = none) :
    ∃ message, message ≠ "" ∧ o.parse config arg = .error message := by
  rw [number?, if_pos hmatches] at h
  refine ⟨o.error ++ String.ofList (arg.toList.drop o.valueAt) ++ "\n", by simp, ?_⟩
  unfold parse
  split at h
  · rename_i m hstoi
    split at h
    · rename_i hrefuses
      simp [hstoi, hrefuses]
    · cases h
  · rename_i error hstoi
    simp [hstoi]

end NumericOption

/-- Whether an argument is read as an option. -/
def IsRead (arg : String) : Prop :=
  (portOption.number? arg).isSome = true ∨ (heartbeatTimeoutOption.number? arg).isSome = true

instance (arg : String) : Decidable (IsRead arg) := inferInstanceAs (Decidable (_ ∨ _))

/-- The configuration after an argument. -/
def stored (config : ServerConfig) (arg : String) : ServerConfig :=
  match portOption.number? arg, heartbeatTimeoutOption.number? arg with
  | some port, _ => portOption.store config port
  | none, some timeout => heartbeatTimeoutOption.store config timeout
  | none, none => config

variable {programName arg : String} {config : ServerConfig} {args : List String}

theorem parseFrom_cons_of_isRead (h : IsRead arg) :
    parseFrom programName config (arg :: args) =
      parseFrom programName (stored config arg) args := by
  have hhelp : ¬ (arg = "--help" ∨ arg = "-h") := by
    intro hhelp
    obtain ⟨hport, htimeout⟩ := not_matches_of_help hhelp
    rcases h with hsome | hsome
    · obtain ⟨n, hn⟩ := Option.isSome_iff_exists.mp hsome
      exact hport (NumericOption.matches_of_number? hn)
    · obtain ⟨n, hn⟩ := Option.isSome_iff_exists.mp hsome
      exact htimeout (NumericOption.matches_of_number? hn)
  rw [parseFrom, if_neg hhelp]
  cases hport : portOption.number? arg with
  | some n =>
    have hstored : stored config arg = portOption.store config n := by
      simp only [stored, hport]
    rw [if_pos (NumericOption.matches_of_number? hport), NumericOption.parse_of_number? hport,
      hstored]
  | none =>
    have hsome : (heartbeatTimeoutOption.number? arg).isSome = true := by
      simpa [IsRead, hport] using h
    obtain ⟨n, htimeout⟩ := Option.isSome_iff_exists.mp hsome
    have hstored : stored config arg = heartbeatTimeoutOption.store config n := by
      simp only [stored, hport, htimeout]
    have hmatches := NumericOption.matches_of_number? htimeout
    rw [if_neg fun hflag => not_matches_both hflag hmatches, if_pos hmatches,
      NumericOption.parse_of_number? htimeout, hstored]

/-- Any other argument is refused, and something written. -/
theorem parseFrom_cons_of_not_isRead (h : ¬ IsRead arg) :
    (parseFrom programName config (arg :: args)).1 = none ∧
      (parseFrom programName config (arg :: args)).2 ≠ {} := by
  obtain ⟨hport, htimeout⟩ := not_or.mp h
  rw [Option.not_isSome_iff_eq_none] at hport htimeout
  unfold parseFrom
  split
  · exact ⟨rfl, by simp [printUsage]⟩
  · split
    · rename_i hmatches
      have herror : ∃ message, message ≠ "" ∧ portOption.parse config arg = .error message :=
        NumericOption.exists_error_of_number?_eq_none hmatches hport
      obtain ⟨message, hne, hparse⟩ := herror
      rw [hparse]
      exact ⟨rfl, by simp [hne]⟩
    · split
      · rename_i hmatches
        have herror : ∃ message, message ≠ "" ∧
            heartbeatTimeoutOption.parse config arg = .error message :=
          NumericOption.exists_error_of_number?_eq_none hmatches htimeout
        obtain ⟨message, hne, hparse⟩ := herror
        rw [hparse]
        exact ⟨rfl, by simp [hne]⟩
      · exact ⟨rfl, by simp⟩

/-- **What the loop makes of any arguments**: a configuration if it reads
them all, and then each stored in turn. -/
theorem parseFrom_fst : ∀ (args : List String) (config : ServerConfig),
    (parseFrom programName config args).1 =
      if ∀ arg ∈ args, IsRead arg then some (args.foldl stored config) else none := by
  intro args
  induction args with
  | nil => exact fun config => rfl
  | cons arg args ih =>
    intro config
    by_cases h : IsRead arg
    · rw [parseFrom_cons_of_isRead h, ih]
      simp only [List.forall_mem_cons, h, true_and, List.foldl_cons]
    · rw [(parseFrom_cons_of_not_isRead h).1, if_neg]
      exact fun hall => h (hall arg List.mem_cons_self)

theorem parseArgs_fst (argv : List String) :
    (parseArgs argv).1 =
      if ∀ arg ∈ argv.tail, IsRead arg then some (argv.tail.foldl stored {}) else none := by
  cases argv with
  | nil => rfl
  | cons programName args => exact parseFrom_fst args {}

/-- It writes something exactly when it refuses. -/
theorem parseFrom_snd_eq_iff : ∀ (args : List String) (config : ServerConfig),
    (parseFrom programName config args).2 = {} ↔
      (parseFrom programName config args).1.isSome = true := by
  intro args
  induction args with
  | nil => exact fun config => iff_of_true rfl rfl
  | cons arg args ih =>
    intro config
    by_cases h : IsRead arg
    · rw [parseFrom_cons_of_isRead h]
      exact ih (stored config arg)
    · have hnone : (parseFrom programName config (arg :: args)).1 = none :=
        (parseFrom_cons_of_not_isRead h).1
      have hwritten : (parseFrom programName config (arg :: args)).2 ≠ {} :=
        (parseFrom_cons_of_not_isRead h).2
      rw [hnone]
      exact iff_of_false hwritten nofun

/-! ## What it stores -/

/-- A port in range survives the cast. -/
theorem toNat_ofInt {n : ℤ} (hlow : 1 ≤ n) (hhigh : n ≤ 65535) :
    ((UInt16.ofInt n).toNat : ℤ) = n := by
  rw [UInt16.ofInt, UInt16.toNat_ofNat']
  omega

theorem port_stored (config : ServerConfig) (arg : String) :
    ((stored config arg).port.toNat : ℤ) =
      (portOption.number? arg).getD (config.port.toNat : ℤ) := by
  unfold stored
  cases hport : portOption.number? arg with
  | some n =>
    obtain ⟨⟨hlow, hhigh⟩, -⟩ :=
      (NumericOption.number?_eq_some_iff NumericOption.ranges_port).mp hport
    exact toNat_ofInt hlow hhigh
  | none => cases heartbeatTimeoutOption.number? arg <;> rfl

theorem heartbeatTimeout_stored (config : ServerConfig) (arg : String) :
    (stored config arg).heartbeatTimeout =
      (heartbeatTimeoutOption.number? arg).getD config.heartbeatTimeout := by
  unfold stored
  cases hport : portOption.number? arg with
  | some n =>
    have htimeout : heartbeatTimeoutOption.number? arg = none := by
      refine Option.eq_none_iff_forall_ne_some.mpr fun m htimeout => ?_
      exact not_matches_both (NumericOption.matches_of_number? hport)
        (NumericOption.matches_of_number? htimeout)
    rw [htimeout]
    rfl
  | none => cases heartbeatTimeoutOption.number? arg <;> rfl

/-- **A configuration a server can run with.** -/
structure ServerConfig.Valid (config : ServerConfig) : Prop where
  port_pos : 0 < config.port.toNat
  heartbeatTimeout_nonneg : 0 ≤ config.heartbeatTimeout

theorem valid_stored (h : config.Valid) (arg : String) : (stored config arg).Valid where
  port_pos := by
    have hstored := port_stored config arg
    have hbefore := h.port_pos
    cases hport : portOption.number? arg with
    | some n =>
      obtain ⟨⟨hlow, -⟩, -⟩ :=
        (NumericOption.number?_eq_some_iff NumericOption.ranges_port).mp hport
      rw [hport, Option.getD_some] at hstored
      omega
    | none =>
      rw [hport, Option.getD_none] at hstored
      omega
  heartbeatTimeout_nonneg := by
    have hstored := heartbeatTimeout_stored config arg
    have hbefore := h.heartbeatTimeout_nonneg
    cases htimeout : heartbeatTimeoutOption.number? arg with
    | some n =>
      obtain ⟨⟨hlow, -⟩, -⟩ :=
        (NumericOption.number?_eq_some_iff NumericOption.ranges_heartbeatTimeout).mp htimeout
      rw [htimeout, Option.getD_some] at hstored
      omega
    | none =>
      rw [htimeout, Option.getD_none] at hstored
      omega

/-- **Every configuration accepted is valid**, loose spellings or not. -/
theorem valid_of_parseArgs {argv : List String} (h : (parseArgs argv).1 = some config) :
    config.Valid := by
  have hdefault : ({} : ServerConfig).Valid := ⟨by decide, by decide⟩
  have hfold : ∀ (args : List String) (config : ServerConfig), config.Valid →
      (args.foldl stored config).Valid := by
    intro args
    induction args with
    | nil => exact fun config hconfig => hconfig
    | cons arg args ih => exact fun config hconfig => ih _ (valid_stored hconfig arg)
  rw [parseArgs_fst] at h
  split at h
  · obtain rfl := Option.some.inj h
    exact hfold argv.tail {} hdefault
  · cases h

/-- The number stored last is the one documented last, where none is loose. -/
theorem getLast?_number? {o : NumericOption} {lowest highest : ℕ} (h : o.Ranges lowest highest)
    (hloose : ∀ arg ∈ args, ¬ LooselySpells o.flag lowest highest arg) (n : ℕ) :
    (args.filterMap o.number?).getLast?.getD (n : ℤ) =
      (args.filterMap (documentedNumber o.flag lowest highest)).getLast?.getD n := by
  have hread : args.filterMap o.number? =
      (args.filterMap (documentedNumber o.flag lowest highest)).map (Nat.cast : ℕ → ℤ) := by
    rw [List.map_filterMap]
    exact List.filterMap_congr fun arg harg => o.number?_eq_map_documented h (hloose arg harg)
  rw [hread, List.getLast?_map, Option.getD_map]

/-! ## The result -/

theorem isRead_iff : IsRead arg ↔ IsDocumented arg ∨ IsLoose arg := by
  rw [IsRead, NumericOption.isSome_number?_iff NumericOption.ranges_port,
    NumericOption.isSome_number?_iff NumericOption.ranges_heartbeatTimeout]
  exact or_or_or_comm

theorem not_isLoose_of_isDocumented (h : IsDocumented arg) : ¬ IsLoose arg := by
  rcases h with h | h
  · obtain ⟨n, hn⟩ := Option.isSome_iff_exists.mp h
    rintro (hloose | ⟨q, -, htimeout, -⟩)
    · exact not_looselySpells_of_documented hn hloose
    · obtain ⟨-, p, -, hport, -⟩ := documentedNumber_eq_some_iff.mp hn
      exact not_matches_both ⟨p.text, hport.symm⟩ ⟨q.text, htimeout.symm⟩
  · obtain ⟨n, hn⟩ := Option.isSome_iff_exists.mp h
    rintro (⟨q, -, hport, -⟩ | hloose)
    · obtain ⟨-, p, -, htimeout, -⟩ := documentedNumber_eq_some_iff.mp hn
      exact not_matches_both ⟨q.text, hport.symm⟩ ⟨p.text, htimeout.symm⟩
    · exact not_looselySpells_of_documented hn hloose

/-- **`ParseArgs` accepts the documented command lines and no others** on
exactly the lists of arguments without a loose spelling, and on those it
refuses for another argument. -/
theorem acceptsDocumented_iff (argv : List String) :
    AcceptsDocumented argv ↔
      (∀ arg ∈ argv.tail, ¬ IsLoose arg) ∨
        ∃ arg ∈ argv.tail, ¬ IsDocumented arg ∧ ¬ IsLoose arg := by
  have hparsed := parseArgs_fst argv
  constructor
  · intro h
    by_contra hnot
    push Not at hnot
    obtain ⟨⟨arg, harg, hloose⟩, hothers⟩ := hnot
    -- every argument is read then, and the loose one is not documented
    have hread : ∀ arg ∈ argv.tail, IsRead arg := by
      intro arg harg
      rw [isRead_iff]
      exact or_iff_not_imp_left.mpr (hothers arg harg)
    rw [if_pos hread] at hparsed
    have hdocumented := h.accepts_iff.mp (by rw [hparsed]; rfl) arg harg
    exact not_isLoose_of_isDocumented hdocumented hloose
  · rintro (hnone | ⟨arg, harg, hdocumented, hloose⟩)
    · have hread : (∀ arg ∈ argv.tail, IsRead arg) ↔ ∀ arg ∈ argv.tail, IsDocumented arg := by
        refine forall₂_congr fun arg harg => ?_
        rw [isRead_iff, or_iff_left (hnone arg harg)]
      have hstored : ∀ config, (parseArgs argv).1 = some config →
          argv.tail.foldl stored {} = config := by
        intro config hconfig
        rw [hparsed] at hconfig
        split at hconfig
        · exact Option.some.inj hconfig
        · cases hconfig
      refine ⟨?_, fun config hconfig => ?_, fun config hconfig => ?_⟩
      · rw [hparsed, Option.isSome_ite, hread]
      · have hport := view_foldl_eq_getLast? stored (fun config => (config.port.toNat : ℤ))
          portOption.number? port_stored argv.tail {}
        have hlast := getLast?_number? NumericOption.ranges_port
          (fun arg harg hloose => hnone arg harg (.inl hloose)) 50051
        rw [hstored config hconfig] at hport
        exact Int.ofNat.inj (hport.trans hlast)
      · have htimeout := view_foldl_eq_getLast? stored ServerConfig.heartbeatTimeout
          heartbeatTimeoutOption.number? heartbeatTimeout_stored argv.tail {}
        have hlast := getLast?_number? NumericOption.ranges_heartbeatTimeout
          (fun arg harg hloose => hnone arg harg (.inr hloose)) 30
        rw [hstored config hconfig] at htimeout
        exact htimeout.trans hlast
    · have hrefused : ¬ ∀ arg ∈ argv.tail, IsRead arg := by
        intro hall
        rcases isRead_iff.mp (hall arg harg) with h | h
        · exact hdocumented h
        · exact hloose h
      rw [if_neg hrefused] at hparsed
      refine ⟨?_, fun config hconfig => ?_, fun config hconfig => ?_⟩
      · rw [hparsed]
        exact iff_of_false nofun fun hall => hdocumented (hall arg harg)
      · rw [hparsed] at hconfig
        cases hconfig
      · rw [hparsed] at hconfig
        cases hconfig

/-- **A port with letters behind it** is accepted, and so is one with a
blank and a sign before it, and a timeout of minus zero. -/
theorem loose_arguments_accepted :
    (parseArgs ["throttling_server", "--port=80abc"]).1 = some { port := 80 } ∧
      (parseArgs ["throttling_server", "--port= +80", "--heartbeat-timeout=-0"]).1 =
        some { port := 80, heartbeatTimeout := 0 } ∧
      ¬ AcceptsDocumented ["throttling_server", "--port=80abc"] := by
  refine ⟨by decide, by decide, fun h => ?_⟩
  have haccepted : (parseArgs ["throttling_server", "--port=80abc"]).1.isSome = true := by decide
  have hdocumented := h.accepts_iff.mp haccepted "--port=80abc" List.mem_cons_self
  have hnot : ¬ ((documentedPort "--port=80abc").isSome = true ∨
      (documentedTimeout "--port=80abc").isSome = true) := by decide
  exact hnot hdocumented

end Throttling
