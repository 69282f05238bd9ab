import Velda.Lib.Delimited

/-! How the pools of one cloud account tell their machines apart: the prefix of the machine names
and `ListRemoteWorkers`, for `digitalocean.go` and `primeintellect.go`. A provider answers with
pages; only the first one is read. -/
namespace Velda.Backends.Naming
open List

abbrev Text := List Char

/-- What is used of the standard library: `strings.ToUpper`, and SHA-256 in hexadecimal. -/
structure Platform where
  toUpper : Text → Text
  sha256 : Text → Text
  length : ∀ text, (sha256 text).length = 64

/-- A DigitalOcean configuration that `NewBackend` accepts. -/
structure Droplet where
  size : Text
  region : Text
  image : Text
  sshKeyIds : List Int := []
  agentVersionOverride : Text := []
  valid : size ≠ [] ∧ region ≠ [] ∧ image ≠ []
  deriving DecidableEq

def Droplet.hashed (cfg : Droplet) : Text :=
  cfg.size ++ cfg.region ++ cfg.image ++ cfg.sshKeyIds.flatMap (fun key => (toString key).toList) ++
    cfg.agentVersionOverride

def calculateDropletPrefix (f : Platform) (cfg : Droplet) : Text :=
  "velda-".toList ++ (f.sha256 cfg.hashed).take 8

inductive Config
  | digitalOcean (cfg : Droplet)
  | primeIntellect (instanceNamePrefix : Text)
  deriving DecidableEq

structure Pool where
  name : Text
  config : Config
  deriving DecidableEq

/-- The prefix for the PrimeIntellect pools, with the default of `NewBackend`. -/
def instancePrefix (name configured : Text) : Text :=
  if configured = [] then "velda-".toList ++ name else configured

def Pool.namePrefix (f : Platform) (p : Pool) : Text :=
  match p.config with
  | .digitalOcean cfg => calculateDropletPrefix f cfg
  | .primeIntellect configured => instancePrefix p.name configured

def Pool.generateWorkerName (f : Platform) (p : Pool) (random : Text) : Text :=
  p.namePrefix f ++ '-' :: random

/-- A machine of the account, with the pool whose `CreateWorker` made it, if one did. -/
structure Machine where
  id : Text
  name : Text
  status : Text
  maker : Option Pool
  deriving DecidableEq

def Pool.live (f : Platform) (p : Pool) (m : Machine) : Bool :=
  match p.config with
  | .digitalOcean _ => m.status = "active".toList || m.status = "new".toList
  | .primeIntellect _ =>
    f.toUpper m.status ≠ "TERMINATED".toList && f.toUpper m.status ≠ "DELETED".toList

def Pool.shown (f : Platform) (p : Pool) (m : Machine) : Bool :=
  match p.config with
  | .digitalOcean _ => p.live f m
  | .primeIntellect _ => m.id ≠ [] && m.name ≠ [] && p.live f m

def Pool.matches (f : Platform) (p : Pool) (name : Text) : Bool :=
  match p.config with
  | .digitalOcean _ => (p.namePrefix f).isPrefixOf name
  | .primeIntellect _ => (p.namePrefix f ++ ['-']).isPrefixOf name

def Pool.listRemoteWorkers (f : Platform) (p : Pool) (pages : List (List Machine)) :
    Text → Option Text :=
  (pages.headD []).foldl (fun workers m =>
    if p.matches f m.name && p.shown f m then Function.update workers m.name (some m.id)
    else workers) fun _ => none

def SameBackend : Config → Config → Prop
  | .digitalOcean _, .digitalOcean _ | .primeIntellect _, .primeIntellect _ => True
  | _, _ => False

/-- The machines of an account, as the provider lists them. Those of pools have names that the
pools generate. -/
structure Account (f : Platform) (backend : Config) where
  pages : List (List Machine)
  ids : (pages.flatten.map (·.id)).Nodup
  made : ∀ m ∈ pages.flatten, ∀ r ∈ m.maker, SameBackend backend r.config ∧
    ∃ random, '-' ∉ random ∧ m.name = r.generateWorkerName f random

variable {f : Platform} {p r : Pool} {m m' : Machine} {page : List Machine}

def ListsOwn (p : Pool) (a : Account f p.config) : Prop :=
  ∀ name id, p.listRemoteWorkers f a.pages name = some id ↔
    ∃ m ∈ a.pages.flatten, p.live f m = true ∧ m.maker = some p ∧ m.name = name ∧ m.id = id

/-- The names of pool `r` match the prefix of `p`. -/
def Shares (p r : Pool) : Prop :=
  match p.config, r.config with
  | .digitalOcean a, .digitalOcean b => a.hashed = b.hashed
  | .primeIntellect a, .primeIntellect b =>
    instancePrefix p.name a ++ ['-'] <+: instancePrefix r.name b ++ ['-']
  | _, _ => False

/-- The first eight digits of the hashes tell apart what the pools hash. -/
def Platform.Distinguishes (f : Platform) (p r : Pool) : Prop :=
  match p.config, r.config with
  | .digitalOcean a, .digitalOcean b =>
    (f.sha256 a.hashed).take 8 = (f.sha256 b.hashed).take 8 → a.hashed = b.hashed
  | _, _ => True

/-- The last machine of the name on the first page that passes the checks. -/
def Pool.last (f : Platform) (p : Pool) (pages : List (List Machine)) (name : Text) :
    Option Machine :=
  (pages.headD []).reverse.find? fun m => p.shown f m && m.name = name

/-- What has to hold of the machines of an account for the list to be right. -/
structure Apart (p : Pool) (a : Account f p.config) : Prop where
  first : ∀ m ∈ a.pages.flatten, p.live f m = true → m.maker = some p →
    m ∈ a.pages.headD [] ∧ p.shown f m = true
  unique : ∀ m ∈ a.pages.flatten, ∀ m' ∈ a.pages.flatten, p.live f m = true → p.live f m' = true →
    m.maker = some p → m'.maker = some p → m.name = m'.name → m = m'
  others : ∀ m, p.last f a.pages m.name = some m → ∀ r ∈ m.maker, r ≠ p → ¬ Shares p r
  foreign : ∀ m, p.last f a.pages m.name = some m → m.maker = none → p.matches f m.name = false

lemma prefix_dash_iff (free : '-' ∉ random) :
    a ++ ['-'] <+: b ++ '-' :: random ↔ a ++ ['-'] <+: b ++ ['-'] := by
  refine ⟨fun h => ?_, fun h => h.trans ⟨random, by simp⟩⟩
  obtain ⟨t, same⟩ := h
  rw [append_assoc, singleton_append] at same
  rcases append_eq_append_iff.mp same with ⟨c, rfl, tails⟩ | ⟨c, rfl, tails⟩
  · cases c with
    | nil => simp
    | cons x c =>
      obtain ⟨rfl, -⟩ := List.cons.inj tails
      exact ⟨c ++ ['-'], by simp⟩
  · cases c with
    | nil => simp
    | cons x c =>
      obtain ⟨-, rest⟩ := List.cons.inj tails
      exact absurd (rest ▸ mem_append_right c mem_cons_self) free

lemma matches_iff (same : SameBackend p.config r.config) (free : '-' ∉ random)
    (distinct : f.Distinguishes p r) :
    p.matches f (r.generateWorkerName f random) = true ↔ Shares p r := by
  obtain ⟨name, config⟩ := p
  obtain ⟨name', config'⟩ := r
  cases config with
  | digitalOcean x =>
    cases config' with
    | primeIntellect => cases same
    | digitalOcean y =>
      simp only [Pool.matches, Pool.generateWorkerName, Pool.namePrefix, calculateDropletPrefix,
        isPrefixOf_iff_prefix, append_assoc, prefix_append_right_inj]
      have lengths : ((f.sha256 x.hashed).take 8).length = ((f.sha256 y.hashed).take 8).length := by
        rw [length_take, length_take, f.length, f.length]
      constructor
      · intro h
        have digits := prefix_of_prefix_length_le h (prefix_append _ _) lengths.le
        exact distinct (digits.eq_of_length lengths)
      · intro h
        rw [h]
        exact prefix_append _ _
  | primeIntellect x =>
    cases config' with
    | digitalOcean => cases same
    | primeIntellect y =>
      simp only [Pool.matches, Pool.generateWorkerName, Pool.namePrefix,
        isPrefixOf_iff_prefix, Shares, prefix_dash_iff free]

lemma listRemoteWorkers_eq (f : Platform) (p : Pool) (pages : List (List Machine)) (name : Text) :
    p.listRemoteWorkers f pages name =
      if p.matches f name then (p.last f pages name).map (·.id) else none := by
  unfold Pool.listRemoteWorkers Pool.last
  induction pages.headD [] using List.reverseRecOn with
  | nil => simp
  | append_singleton page m ih =>
    rw [foldl_append, foldl_cons, foldl_nil, reverse_append,
      reverse_singleton, singleton_append, List.find?_cons]
    by_cases hit : (p.matches f m.name && p.shown f m) = true
    · obtain ⟨matched, shown⟩ := Bool.and_eq_true_iff.mp hit
      rw [if_pos hit]
      by_cases here : m.name = name
      · simp [← here, matched, shown]
      · rw [Function.update_of_ne (Ne.symm here), ih]
        simp [here]
    · rw [if_neg hit, ih]
      by_cases here : m.name = name
      · subst here
        cases matched : p.matches f m.name with
        | false => rfl
        | true => simp_all
      · simp [here]

lemma live_of_shown (h : p.shown f m = true) : p.live f m = true := by
  unfold Pool.shown at h
  split at h
  · exact h
  · exact (Bool.and_eq_true_iff.mp h).2

variable {pages : List (List Machine)} {name : Text}

lemma shown_of_last (h : p.last f pages name = some m) : p.shown f m = true ∧ m.name = name := by
  have holds := List.find?_some h
  simpa using holds

lemma mem_of_last (h : p.last f pages name = some m) :
    m ∈ pages.flatten ∧ p.live f m = true ∧ m.name = name := by
  obtain ⟨shown, named⟩ := shown_of_last h
  refine ⟨?_, live_of_shown shown, named⟩
  have mem := mem_reverse.mp (mem_of_find?_eq_some h)
  cases pages with
  | nil => cases mem
  | cons page rest => exact mem_append_left _ mem

lemma Account.eq_of_id (a : Account f backend) (mem : m ∈ a.pages.flatten)
    (mem' : m' ∈ a.pages.flatten) (same : m.id = m'.id) : m = m' :=
  inj_on_of_nodup_map a.ids mem mem' same

/-- A pool lists exactly its own live machines when all of them are on the first page under
different names, no machine there is of a pool with the same hash or with a longer prefix of the
same beginning, and no other machine there has the prefix. -/
theorem lists_own_iff (p : Pool) (a : Account f p.config)
    (distinct : ∀ m ∈ a.pages.flatten, ∀ r ∈ m.maker, f.Distinguishes p r) :
    ListsOwn p a ↔ Apart p a := by
  have matched : ∀ m ∈ a.pages.flatten, ∀ r ∈ m.maker, (p.matches f m.name = true ↔ Shares p r) := by
    intro m mem r maker
    obtain ⟨same, random, free, named⟩ := a.made m mem r maker
    rw [named]
    exact matches_iff same free (distinct m mem r maker)
  have own : ∀ m ∈ a.pages.flatten, m.maker = some p → p.matches f m.name = true := by
    intro m mem maker
    refine (matched m mem p maker).mpr ?_
    unfold Shares
    cases p.config <;> simp
  constructor
  · intro exact
    have listed : ∀ m, p.last f a.pages m.name = some m → p.matches f m.name = true →
        m.maker = some p := by
      intro m last hit
      obtain ⟨m', mem', -, maker, -, same⟩ := (exact m.name m.id).mp (by
        rw [listRemoteWorkers_eq, if_pos hit, last]
        rfl)
      rw [← a.eq_of_id mem' (mem_of_last last).1 same, maker]
    have found : ∀ m ∈ a.pages.flatten, p.live f m = true → m.maker = some p →
        p.last f a.pages m.name = some m := by
      intro m mem live maker
      have here := (exact m.name m.id).mpr ⟨m, mem, live, maker, rfl, rfl⟩
      rw [listRemoteWorkers_eq, if_pos (own m mem maker)] at here
      obtain ⟨m', last, same⟩ := Option.map_eq_some_iff.mp here
      rw [last, a.eq_of_id (mem_of_last last).1 mem same]
    refine ⟨?_, ?_, ?_, ?_⟩
    · intro m mem live maker
      have last := found m mem live maker
      exact ⟨mem_reverse.mp (mem_of_find?_eq_some last), (shown_of_last last).1⟩
    · intro m mem m' mem' live live' maker maker' same
      have last := found m mem live maker
      rw [same, found m' mem' live' maker'] at last
      exact (Option.some.inj last).symm
    · intro m last r maker other shares
      have hit := (matched m (mem_of_last last).1 r maker).mpr shares
      rw [listed m last hit] at maker
      exact other (Option.some.inj maker).symm
    · intro m last none
      by_contra hit
      rw [listed m last (by simpa using hit)] at none
      cases none
  · intro apart name id
    have listed : ∀ m, p.last f a.pages name = some m → p.matches f name = true →
        m.maker = some p := by
      intro m last hit
      obtain ⟨mem, -, rfl⟩ := mem_of_last last
      cases maker : m.maker with
      | none => simp [apart.foreign m last maker] at hit
      | some r =>
        by_contra other
        exact apart.others m last r maker (fun same => other (by rw [same]))
          ((matched m mem r maker).mp hit)
    rw [listRemoteWorkers_eq]
    constructor
    · intro here
      split at here
      · next hit =>
        obtain ⟨m, last, rfl⟩ := Option.map_eq_some_iff.mp here
        obtain ⟨mem, live, named⟩ := mem_of_last last
        exact ⟨m, mem, live, listed m last hit, named, rfl⟩
      · cases here
    · rintro ⟨m, mem, live, maker, rfl, rfl⟩
      obtain ⟨page, shown⟩ := apart.first m mem live maker
      have hit := own m mem maker
      rw [if_pos hit]
      obtain ⟨m', last⟩ : ∃ m', p.last f a.pages m.name = some m' := by
        rw [← Option.isSome_iff_exists, Pool.last, List.find?_isSome]
        exact ⟨m, mem_reverse.mpr page, by simp [shown]⟩
      obtain ⟨mem', live', named⟩ := mem_of_last last
      rw [last, apart.unique m' mem' m mem live' live (listed m' last hit) maker named]
      rfl

def zeros : Platform where
  toUpper := List.map Char.toUpper
  sha256 _ := List.replicate 64 '0'
  length _ := length_replicate

def droplets (name : Text) : Pool :=
  ⟨name, .digitalOcean { size := ['s'], region := ['r'], image := ['i'], valid := by simp }⟩

def pods (name : Text) : Pool := ⟨name, .primeIntellect []⟩

def Pool.make (r : Pool) (digit : Char) : Machine :=
  ⟨[digit], r.generateWorkerName zeros [digit], "active".toList, some r⟩

def Account.two (p r r' : Pool) (same : SameBackend p.config r.config)
    (same' : SameBackend p.config r'.config) : Account zeros p.config where
  pages := [[r.make '1'], [r'.make '2']]
  ids := by simp [Pool.make]
  made := by
    intro m mem maker h
    rcases mem_pair.mp mem with rfl | rfl
    · obtain rfl := Option.some.inj h
      exact ⟨same, ['1'], by decide, rfl⟩
    · obtain rfl := Option.some.inj h
      exact ⟨same', ['2'], by decide, rfl⟩

theorem lists_own_first : ListsOwn (pods ['a']) (.two _ (pods ['a']) (pods ['b']) trivial trivial) := by
  refine (lists_own_iff _ _ fun m mem r maker => ?_).mpr ⟨?_, ?_, ?_, ?_⟩
  · rcases mem_pair.mp mem with rfl | rfl <;> cases maker <;> trivial
  · decide
  · decide
  · intro m last r maker other
    have first : m ∈ [(pods ['a']).make '1'] :=
      mem_reverse.mp (mem_of_find?_eq_some last)
    obtain rfl := mem_singleton.mp first
    exact absurd (Option.some.inj maker).symm other
  · intro m last none
    have first : m ∈ [(pods ['a']).make '1'] :=
      mem_reverse.mp (mem_of_find?_eq_some last)
    obtain rfl := mem_singleton.mp first
    cases none

lemma not_listsOwn {a : Account f p.config} (worker id : Text)
    (found : p.listRemoteWorkers f a.pages worker = some id)
    (others : ∀ m ∈ a.pages.flatten, m.maker ≠ some p) : ¬ ListsOwn p a := by
  intro own
  obtain ⟨m, mem, -, maker, -⟩ := (own worker id).mp found
  exact others m mem maker

/-- Two droplet pools with one configuration list each other's machines, and so does pool `a` with
those of `a-b`; a pool misses its own machine on the second page. -/
theorem lists_foreign :
    ¬ ListsOwn (droplets ['a']) (.two _ (droplets ['b']) (droplets ['b']) trivial trivial) ∧
    zeros.Distinguishes (droplets ['a']) (droplets ['b']) ∧
    ¬ ListsOwn (pods ['a']) (.two _ (pods ['a', '-', 'b']) (pods ['b']) trivial trivial) ∧
    ¬ ListsOwn (pods ['a']) (.two _ (pods ['a']) (pods ['a']) trivial trivial) := by
  refine ⟨not_listsOwn ((droplets ['b']).make '1').name ['1'] (by decide) (by decide),
    fun _ => rfl, not_listsOwn ((pods ['a', '-', 'b']).make '1').name ['1'] (by decide) (by decide),
    fun own => ?_⟩
  have missed := (own ((pods ['a']).make '2').name ['2']).mpr ⟨(pods ['a']).make '2', by decide⟩
  revert missed
  decide

end Velda.Backends.Naming
