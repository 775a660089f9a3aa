import Vouch.Store.LostUpdate
import Vouch.Oidc.Replay
import Vouch.Db.DeviceAuth
import Vouch.Auth.SignCounter
import Vouch.Oidc.ExchangeAttenuation
import Vouch.Oidc.ExchangeAudience
import Vouch.Db.BenignWriters
import Vouch.Infra.ClientIp
import Vouch.Infra.ConnCaps
import Vouch.Auth.AttestationChain
import Vouch.Oidc.Mtls
import Vouch.Agent.Isolation
import Vouch.Oidc.Revocation
import Vouch.Audit.Delivery
import Vouch.HttpSig.SigPolicy
import Vouch.HttpSig.Labels
import Vouch.Store.TimestampText
import Vouch.HttpSig.QueryParam
import Vouch.Store.MultiRow
import Vouch.Oidc.RedirectUri
import Vouch.Saml.Context
import Vouch.Policy.Versions
import Vouch.Db.GitHubLink
import Vouch.Oidc.PushedRequests
import Vouch.Ssh.Certificates
import Vouch.Aws.CredentialProcess
import Vouch.Db.DeterministicIds
import Vouch.Cli.CacheKeys
