import SetScaler.Cluster.Schema

/-!
The manifest that makes clusters known to the API server as a kind of resource.
-/

namespace SetScaler

structure ResourceKind where
  group : String
  version : String
  kind : String
  plural : String
  singular : String
  shortNames : List String
deriving Repr

def clusterKind : ResourceKind :=
  { group := "pulsar.oss.dev", version := "v1alpha1", kind := "PulsarCluster"
    plural := "pulsarclusters", singular := "pulsarcluster", shortNames := ["pc"] }

def ClusterStatus.schema : Schema :=
  .record [
    ("autoscaledSets", .list (.scalar .string {}) {
      default := "[]"
      description := "Component sets with a live autoscaler task, as `component/set`" }),
    ("lastTransitionTime", .scalar .string {
      description := "When `autoscaledSets` last changed", nullable := true })]
    { description := "Status reported by the operator on the PulsarCluster CR", nullable := true }

/-- The schema of the whole resource, of which only the spec has to be given. -/
def Cluster.schemaYaml : Yaml :=
  .mapping [
    ("description",
      .word "Auto-generated derived type for PulsarClusterSpec via `CustomResource`"),
    ("properties", .mapping [("spec", ClusterSpec.schema.toYaml),
      ("status", ClusterStatus.schema.toYaml)]),
    ("required", .sequence [.word "spec"]),
    ("title", .word clusterKind.kind),
    ("type", .word "object")]

def Cluster.manifest : Yaml :=
  .mapping [
    ("apiVersion", .word "apiextensions.k8s.io/v1"),
    ("kind", .word "CustomResourceDefinition"),
    ("metadata", .mapping [("name", .word (clusterKind.plural ++ "." ++ clusterKind.group))]),
    ("spec", .mapping [
      ("group", .word clusterKind.group),
      ("names", .mapping [
        ("categories", .sequence []),
        ("kind", .word clusterKind.kind),
        ("plural", .word clusterKind.plural),
        ("shortNames", .sequence (clusterKind.shortNames.map .word)),
        ("singular", .word clusterKind.singular)]),
      ("scope", .word "Namespaced"),
      ("versions", .sequence [.mapping [
        ("additionalPrinterColumns", .sequence []),
        ("name", .word clusterKind.version),
        ("schema", .mapping [("openAPIV3Schema", Cluster.schemaYaml)]),
        ("served", .word "true"),
        ("storage", .word "true"),
        ("subresources", .mapping [("status", .mapping [])])]])])]

end SetScaler
