import TurboPanel.Js.Map
import TurboPanel.Js.Text

/-!
# The options of `docker run`

The table of `src/features/docker-run/option-registry.ts`: every option with its spellings, how it
takes its argument and whether it may be repeated. What the importer does with an option is not used
by the parser.
-/

namespace TurboPanel.DockerRun

open List Js

/-- How an option takes its argument: never, always, or as a boolean that never takes the next
token. -/
inductive DockerRunOptionValue where
  | none
  | required
  | optional
  deriving DecidableEq

structure DockerRunOptionDefinition where
  /-- Every spelling, the shorthand first and the canonical name last. -/
  names : List Text
  value : DockerRunOptionValue
  repeatable : Bool

def option (names : List String) (value : DockerRunOptionValue) (repeatable : Bool) :
    DockerRunOptionDefinition :=
  ⟨names.map String.toList, value, repeatable⟩

def dockerRunOptions : List DockerRunOptionDefinition := [
  option ["--add-host"] .required true,
  option ["--annotation"] .required true,
  option ["-a", "--attach"] .required true,
  option ["--blkio-weight"] .required false,
  option ["--blkio-weight-device"] .required true,
  option ["--cap-add"] .required true,
  option ["--cap-drop"] .required true,
  option ["--cgroup-parent"] .required false,
  option ["--cgroupns"] .required false,
  option ["--cidfile"] .required false,
  option ["--cpu-count"] .required false,
  option ["--cpu-percent"] .required false,
  option ["--cpu-period"] .required false,
  option ["--cpu-quota"] .required false,
  option ["--cpu-rt-period"] .required false,
  option ["--cpu-rt-runtime"] .required false,
  option ["-c", "--cpu-shares"] .required false,
  option ["--cpus"] .required false,
  option ["--cpuset-cpus"] .required false,
  option ["--cpuset-mems"] .required false,
  option ["-d", "--detach"] .optional false,
  option ["--detach-keys"] .required false,
  option ["--device"] .required true,
  option ["--device-cgroup-rule"] .required true,
  option ["--device-read-bps"] .required true,
  option ["--device-read-iops"] .required true,
  option ["--device-write-bps"] .required true,
  option ["--device-write-iops"] .required true,
  option ["--disable-content-trust"] .optional false,
  option ["--dns"] .required true,
  option ["--dns-option"] .required true,
  option ["--dns-search"] .required true,
  option ["--domainname"] .required false,
  option ["--entrypoint"] .required false,
  option ["-e", "--env"] .required true,
  option ["--env-file"] .required true,
  option ["--expose"] .required true,
  option ["--gpus"] .required true,
  option ["--group-add"] .required true,
  option ["--health-cmd"] .required false,
  option ["--health-interval"] .required false,
  option ["--health-retries"] .required false,
  option ["--health-start-interval"] .required false,
  option ["--health-start-period"] .required false,
  option ["--health-timeout"] .required false,
  option ["--help"] .optional false,
  option ["-h", "--hostname"] .required false,
  option ["--init"] .optional false,
  option ["-i", "--interactive"] .optional false,
  option ["--io-maxbandwidth"] .required false,
  option ["--io-maxiops"] .required false,
  option ["--ip"] .required false,
  option ["--ip6"] .required false,
  option ["--ipc"] .required false,
  option ["--isolation"] .required false,
  option ["-l", "--label"] .required true,
  option ["--label-file"] .required true,
  option ["--link"] .required true,
  option ["--link-local-ip"] .required true,
  option ["--log-driver"] .required false,
  option ["--log-opt"] .required true,
  option ["--mac-address"] .required false,
  option ["-m", "--memory"] .required false,
  option ["--memory-reservation"] .required false,
  option ["--memory-swap"] .required false,
  option ["--memory-swappiness"] .required false,
  option ["--mount"] .required true,
  option ["--name"] .required false,
  option ["--network"] .required true,
  option ["--network-alias"] .required true,
  option ["--no-healthcheck"] .optional false,
  option ["--oom-kill-disable"] .optional false,
  option ["--oom-score-adj"] .required false,
  option ["--pid"] .required false,
  option ["--pids-limit"] .required false,
  option ["--platform"] .required false,
  option ["--privileged"] .optional false,
  option ["-p", "--publish"] .required true,
  option ["-P", "--publish-all"] .optional false,
  option ["--pull"] .required false,
  option ["-q", "--quiet"] .optional false,
  option ["--read-only"] .optional false,
  option ["--restart"] .required false,
  option ["--rm"] .optional false,
  option ["--runtime"] .required false,
  option ["--security-opt"] .required true,
  option ["--shm-size"] .required false,
  option ["--sig-proxy"] .optional false,
  option ["--stop-signal"] .required false,
  option ["--stop-timeout"] .required false,
  option ["--storage-opt"] .required true,
  option ["--sysctl"] .required true,
  option ["--tmpfs"] .required true,
  option ["-t", "--tty"] .optional false,
  option ["--ulimit"] .required true,
  option ["--use-api-socket"] .optional false,
  option ["-u", "--user"] .required false,
  option ["--userns"] .required false,
  option ["--uts"] .required false,
  option ["-v", "--volume"] .required true,
  option ["--volume-driver"] .required false,
  option ["--volumes-from"] .required true,
  option ["-w", "--workdir"] .required false
]

def dockerRunOptionName (definition : DockerRunOptionDefinition) : Text := definition.names.getLast?.getD []

/-- Every spelling with its option. -/
def spellings : List (Text × DockerRunOptionDefinition) :=
  dockerRunOptions.flatMap fun definition => definition.names.map fun name => (name, definition)

def optionsByName : Map Text DockerRunOptionDefinition := Map.ofEntries spellings

def lookupDockerRunOption (name : Text) : Option DockerRunOptionDefinition := optionsByName.get? name

def dockerRunOptionNames : List Text := optionsByName.keys

/-! ## The shape of the spellings -/

/-- Two dashes and a name without an equals sign, or a dash and one character. -/
def spellingShape : Text → Bool
  | ['-', c] => c != '-' && c != '='
  | '-' :: '-' :: name => !name.contains '='
  | _ => false

theorem spellings_check :
    ((spellings.map Prod.fst).filter fun name => 2 < name.length).IsChain (· < ·) ∧
      ((spellings.map Prod.fst).filter fun name => ¬2 < name.length).Nodup ∧
      ∀ name ∈ spellings.map Prod.fst, spellingShape name = true := by decide +kernel

theorem nodup_spellings : (spellings.map Prod.fst).Nodup := by
  obtain ⟨hlong, hshort, -⟩ := spellings_check
  refine (filter_append_perm (fun name => decide (2 < name.length)) _).nodup_iff.1 ?_
  refine nodup_append.2 ⟨?_, ?_, fun name hname name' hname' heq => ?_⟩
  · refine List.Pairwise.imp (S := fun x y => x ≠ y) (fun {x y} hlt => ?_) hlong.pairwise
    rintro rfl
    exact List.lt_irrefl x hlt
  · simpa only [decide_not] using hshort
  · have hlen := (mem_filter.1 hname).2
    have hlen' := (mem_filter.1 hname').2
    rw [← heq, hlen] at hlen'
    cases hlen'

variable {definition : DockerRunOptionDefinition}

theorem value_ne_none (h : definition ∈ dockerRunOptions) : definition.value ≠ .none := by
  have hall : ∀ value ∈ dockerRunOptions.map DockerRunOptionDefinition.value,
      value ≠ DockerRunOptionValue.none := by decide
  exact hall _ (mem_map.2 ⟨definition, h, rfl⟩)

variable {name : Text}

theorem mem_spellings (h : definition ∈ dockerRunOptions)
    (hname : name ∈ definition.names) : (name, definition) ∈ spellings :=
  mem_flatMap.2 ⟨definition, h, mem_map.2 ⟨name, hname, rfl⟩⟩

/-- **Every spelling finds its option.** -/
theorem lookup_name (h : definition ∈ dockerRunOptions)
    (hname : name ∈ definition.names) : lookupDockerRunOption name = some definition :=
  (Map.get?_ofEntries nodup_spellings).2 (mem_spellings h hname)

attribute [irreducible] lookupDockerRunOption

theorem long_or_short (h : definition ∈ dockerRunOptions) (hname : name ∈ definition.names) :
    (∃ rest, name = '-' :: '-' :: rest ∧ rest ≠ [] ∧ '=' ∉ rest) ∨
      ∃ c, name = ['-', c] ∧ c ≠ '-' ∧ c ≠ '=' := by
  have hshape := spellings_check.2.2 name (mem_map.2 ⟨_, mem_spellings h hname, rfl⟩)
  unfold spellingShape at hshape
  split at hshape
  · rename_i c
    rw [Bool.and_eq_true, bne_iff_ne, bne_iff_ne] at hshape
    exact .inr ⟨c, rfl, hshape⟩
  · rename_i rest hlong
    refine .inl ⟨rest, rfl, ?_, by simpa using hshape⟩
    rintro rfl
    exact hlong rfl
  · cases hshape

end TurboPanel.DockerRun
