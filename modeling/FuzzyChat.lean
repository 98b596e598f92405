import FuzzyChat.Controller.Panics
import FuzzyChat.Controller.Binding
import FuzzyChat.Controller.Delivery
import FuzzyChat.Controller.PathLength
import FuzzyChat.Controller.Expiry
import FuzzyChat.Controller.RouteRecords
import FuzzyChat.Controller.RefusedWrites
import FuzzyChat.Controller.NextHops
import FuzzyChat.Controller.Deadlock
import FuzzyChat.Controller.Discovery
import FuzzyChat.Controller.SelfRouting
import FuzzyChat.Controller.Relogin
import FuzzyChat.Controller.RejectedPings
import FuzzyChat.Controller.RedisRoutes
import FuzzyChat.Controller.RedisLookups
import FuzzyChat.Controller.SessionBackends
import FuzzyChat.Controller.RouteBackends
import FuzzyChat.Controller.RedisInterleaved
import FuzzyChat.Controller.RedisKeys
import FuzzyChat.Controller.RedisMembers
import FuzzyChat.Controller.RedisKeyLife
import FuzzyChat.Controller.Locked
import FuzzyChat.Controller.Ended
import FuzzyChat.Controller.Upheld
import FuzzyChat.Peers.Credentials
import FuzzyChat.Peers.Malformed
import FuzzyChat.Peers.Landing
import FuzzyChat.Peers.Command
import FuzzyChat.Peers.Unseen
import FuzzyChat.Peers.KeepAlive
import FuzzyChat.Peers.AuthLocks
