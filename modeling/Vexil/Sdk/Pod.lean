import Vexil.Kube.Cluster
import Vexil.Sdk.Client

/-!
# What a pod sees of the cluster

The environment a kubelet builds from the env list of a container and the files
it mounts from a ConfigMap, as far as the SDK reads them. Later entries of an
env list replace earlier ones, an entry with a value of its own ignores its
reference, and what a reference or a `$(VAR)` stands for is the kubelet's
business.
-/

namespace Vexil.Sdk

open Vexil.Lib Vexil.Kube

/-- How a kubelet expands a value in what is set so far, and what it finds
behind a reference. -/
structure Kubelet where
  expand : GoMap String → String → String
  resolve : EnvVarSource → String

/-- One entry of an env list. -/
def Kubelet.add (kubelet : Kubelet) (env : GoMap String) (e : EnvVar) :
    GoMap String :=
  env.insert e.name
    (if e.value ≠ "" then kubelet.expand env e.value
    else
      match e.valueFrom with
      | none => ""
      | some source => kubelet.resolve source)

/-- The environment of a container, over what its image sets. -/
def Kubelet.environ (kubelet : Kubelet) (image : GoMap String)
    (env : List EnvVar) : GoMap String :=
  env.foldl kubelet.add image

/-- The directory a ConfigMap is mounted at. -/
def mounted (s : Cluster) (k : ObjectKey) : ConfigPath :=
  match s.configMaps.get? k with
  | none => .missing
  | some cm => .dir (orEmpty cm.data)

/-- A variable is missing when neither the image nor any entry sets it. -/
theorem lookup_environ {kubelet : Kubelet} {image : GoMap String}
    {env : List EnvVar} {name : String} :
    (kubelet.environ image env).lookup name = none ↔
      image.lookup name = none ∧ ∀ e ∈ env, e.name ≠ name := by
  unfold Kubelet.environ
  induction env generalizing image with
  | nil => simp
  | cons e es ih =>
      rw [List.foldl_cons, ih, Kubelet.add, GoMap.lookup_insert,
        List.forall_mem_cons]
      by_cases h : name = e.name
      · simp [h]
      · simp [h, Ne.symm h]

end Vexil.Sdk
